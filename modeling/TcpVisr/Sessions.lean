import TcpVisr.Clocks
import TcpVisr.Commands
import TcpVisr.Pipeline

/-!
Whole live sessions.

The UI thread never waits for the capture thread: from any state it comes, by its own steps,
to a frame that has caught up. Only a key or an I/O error ends a session, and nothing holds its
end up. And a session no longer than its retention window, once caught up with nothing dropped,
lists the connections that the same packets give as a file.
-/

namespace TcpVisr

open Lib.Runs Lib.Channel Slots Lifecycle Index

/-! ### Steps of one thread -/

/-- A step of the UI thread. -/
def Action.ofUi : Action → Bool
  | .wait | .read _ | .send | .halt => false
  | _ => true

namespace Pipeline

variable {ses : Session} {s s' s'' : Pipeline} {who : Action → Bool}

/-- Steps of one kind get from `s` to `s'`, at most `k` of them. -/
def Reaches (ses : Session) (who : Action → Bool) (k : ℕ) (s s' : Pipeline) : Prop :=
  ∃ more : List Action, more.length ≤ k ∧ (∀ a ∈ more, who a = true) ∧
    Steps (step ses) s Enabled more ∧ run (step ses) s more = s'

lemma Reaches.refl (ses : Session) (who : Action → Bool) (s : Pipeline) : Reaches ses who 0 s s :=
  ⟨[], le_rfl, by simp, steps_nil _, rfl⟩

lemma Reaches.one {a : Action} (ha : who a = true) (he : s.Enabled a) :
    Reaches ses who 1 s (s.step ses a) :=
  ⟨[a], le_rfl, by simpa using ha, steps_cons.mpr ⟨he, steps_nil _⟩, rfl⟩

lemma Reaches.trans {j k : ℕ} (h : Reaches ses who j s s') (h' : Reaches ses who k s' s'') :
    Reaches ses who (j + k) s s'' := by
  obtain ⟨more, hlen, hwho, hsteps, rfl⟩ := h
  obtain ⟨more', hlen', hwho', hsteps', rfl⟩ := h'
  refine ⟨more ++ more', ?_, fun a ha => ?_, steps_append.mpr ⟨hsteps, hsteps'⟩, run_append ..⟩
  · rw [List.length_append]
    omega
  · exact (List.mem_append.mp ha).elim (hwho a) (hwho' a)

lemma Reaches.mono {j k : ℕ} (h : Reaches ses who j s s') (hjk : j ≤ k) :
    Reaches ses who k s s' := by
  obtain ⟨more, hlen, hrest⟩ := h
  exact ⟨more, hlen.trans hjk, hrest⟩

/-- From the state a run ends in, the run goes on. -/
lemma Reaches.after {acts : List Action} {k : ℕ} (h : Runs ses acts)
    (hr : Reaches ses who k (after ses acts) s') :
    ∃ more : List Action, more.length ≤ k ∧ (∀ a ∈ more, who a = true) ∧
      Runs ses (acts ++ more) ∧ Pipeline.after ses (acts ++ more) = s' := by
  obtain ⟨more, hlen, hwho, hsteps, rfl⟩ := hr
  exact ⟨more, hlen, hwho, steps_append.mpr ⟨h, hsteps⟩, run_append ..⟩

/-! ### Catching up -/

/-- What the UI thread's own steps cannot change. -/
structure Beside (s s' : Pipeline) : Prop where
  counts : s'.link.counts = s.link.counts
  through : s'.link.through = s.link.through

lemma Beside.refl (s : Pipeline) : Beside s s := ⟨rfl, rfl⟩

lemma Beside.trans (h : Beside s s') (h' : Beside s' s'') : Beside s s'' :=
  ⟨h'.counts.trans h.counts, h'.through.trans h.through⟩

lemma beside_recv (ses : Session) (s : Pipeline) : Beside s (s.recvOne ses) := by
  unfold recvOne
  split
  · exact .refl s
  · next m queue hq =>
      refine ⟨Link.counts_take s.link, ?_⟩
      simp [Link.through, Link.take, hq]

/-- Draining `n` messages. -/
lemma drains (n : ℕ) (hg : Good ses s) (hstop : s.stop = false) (hphase : s.phase = .drain)
    (hn : s.link.queue.length = n) :
    ∃ s', Reaches ses Action.ofUi n s s' ∧ Good ses s' ∧ Beside s s' ∧ s'.stop = false ∧
      s'.phase = .drain ∧ s'.link.queue = [] := by
  induction n generalizing s with
  | zero =>
      exact ⟨s, .refl ses _ s, hg, .refl s, hstop, hphase, List.length_eq_zero_iff.mp hn⟩
  | succ n ih =>
      obtain ⟨m, queue, hq⟩ := List.exists_cons_of_length_eq_add_one hn
      have he : s.Enabled .recv := ⟨hstop, hphase, by simp [hq]⟩
      have hstop' : (s.recvOne ses).stop = false := by
        simp only [recvOne, hq]
        cases m.body <;> exact hstop
      have hphase' : (s.recvOne ses).phase = .drain := by
        simp only [recvOne, hq]
        cases m.body <;> exact hphase
      have hqueue : (s.recvOne ses).link.queue = queue := by simp [recvOne, hq, Link.take]
      have hlen : (s.recvOne ses).link.queue.length = n := by
        rw [hqueue]
        rw [hq, List.length_cons] at hn
        omega
      obtain ⟨s', hr, hg', hb, hrest⟩ := ih (good_recvOne hg hphase) hstop' hphase' hlen
      refine ⟨s', ?_, hg', (beside_recv ses s).trans hb, hrest⟩
      exact ((Reaches.one rfl he).trans hr).mono (by omega)

/-- The counters are loaded as they stand. -/
lemma loads_counts (hg : Good ses s) (i : Counter) : s.link.Loads i (s.link.counts i) :=
  ⟨hg.link.seen_le i, le_rfl⟩

/-- Back to the poll, once the drop count is loaded. -/
lemma polls (elapsed : ℕ) (hg : Good ses s) (hstop : s.stop = false) {d : ℕ}
    (hphase : s.phase = .status d) :
    ∃ s', Reaches ses Action.ofUi 1 s s' ∧ Good ses s' ∧ Beside s s' ∧ s'.stop = false ∧
      s'.phase = .poll ∧
      s'.link.taken = s.link.taken ∧
      s'.live.app.liveStatus = statusOf d (s.link.counts .skips) ∧
      s'.live.app.timeline = s'.live.tracker.snapshot := by
  have he : s.Enabled (.loadSkips (s.link.counts .skips) elapsed) :=
    ⟨hstop, ⟨d, hphase⟩, loads_counts hg .skips⟩
  have hgood := good_step hg _ he
  refine ⟨_, .one rfl he, hgood, ?_⟩
  obtain ⟨htl, hst, -⟩ := given_showFrame ses
    { s with link := s.link.load .skips (s.link.counts .skips) } d (s.link.counts .skips) elapsed
  simp only [step, hphase]
  exact ⟨⟨rfl, rfl⟩, hstop, rfl, rfl, hst, htl⟩

/-- From the end of the drain to the frame. -/
lemma frames (elapsed : ℕ) (hg : Good ses s) (hstop : s.stop = false) (hphase : s.phase = .count) :
    ∃ s', Reaches ses Action.ofUi 2 s s' ∧ Good ses s' ∧ Beside s s' ∧ s'.stop = false ∧
      s'.phase = .poll ∧
      s'.link.taken = s.link.taken ∧
      s'.live.app.liveStatus = statusOf (s.link.counts .dropped) (s.link.counts .skips) ∧
      s'.live.app.timeline = s'.live.tracker.snapshot := by
  have he : s.Enabled (.loadDropped (s.link.counts .dropped)) :=
    ⟨hstop, hphase, loads_counts hg .dropped⟩
  obtain ⟨s', hr, hg', hb, hrest⟩ :=
    polls elapsed (good_step hg _ he) hstop (d := s.link.counts .dropped) rfl
  have hload : Beside s (s.step ses (.loadDropped (s.link.counts .dropped))) := ⟨rfl, rfl⟩
  exact ⟨s', (Reaches.one rfl he).trans hr, hg', hload.trans hb, hrest⟩

/-- A frame that has caught up with `s`: all that had got through is folded, and the header
has the counters as they stood. -/
structure CaughtUp (ses : Session) (s s' : Pipeline) : Prop where
  polls : s'.phase = .poll
  drained : s'.link.queue = []
  received : s'.link.received = s.link.received ++ s.link.queue.map Msg.body
  status : s'.live.app.liveStatus = statusOf (s.link.counts .dropped) (s.link.counts .skips)
  timeline : s'.live.app.timeline = (Tracker.track ses.config
    (s'.link.received.filterMap LiveCapture.LiveEvent.item?)).snapshot

lemma CaughtUp.beside (hb : Beside s s') (h : CaughtUp ses s' s'') : CaughtUp ses s s'' := by
  obtain ⟨h1, h2, h3, h4, h5⟩ := h
  refine ⟨h1, h2, h3.trans ?_, by rw [h4, hb.counts], h5⟩
  have hthrough := congrArg (List.map Msg.body) hb.through
  rwa [Link.through, Link.through, List.map_append, List.map_append] at hthrough

/-- From the start of the drain to a frame. -/
lemma caughtUp_of_drain (elapsed : ℕ) (hg : Good ses s) (hstop : s.stop = false)
    (hphase : s.phase = .drain) :
    ∃ s', Reaches ses Action.ofUi (channelBound + 3) s s' ∧ CaughtUp ses s s' := by
  obtain ⟨s₁, hr₁, hg₁, hb₁, hstop₁, hphase₁, hq₁⟩ := drains _ hg hstop hphase rfl
  have he : s₁.Enabled .drained := ⟨hstop₁, hphase₁, hq₁⟩
  obtain ⟨s₂, hr₂, hg₂, hb₂, -, hphase₂, htaken, hst, htl⟩ :=
    frames elapsed (good_step hg₁ _ he) hstop₁ rfl
  have hroom := hg.link.room
  have hlast : Beside s₁ (s₁.step ses .drained) := ⟨rfl, rfl⟩
  have hb₂' : Beside s₁ s₂ := hlast.trans hb₂
  refine ⟨s₂, ((hr₁.trans (.one rfl he)).trans hr₂).mono (by omega), CaughtUp.beside hb₁ ?_⟩
  have hreceived : s₂.link.received = s₁.link.received := congrArg (List.map Msg.body) htaken
  refine ⟨hphase₂, ?_, ?_, hst, ?_⟩
  · -- What got through is taken, all of it.
    have hthrough := hb₂'.through
    rw [Link.through, Link.through, hq₁, List.append_nil] at hthrough
    exact List.append_right_eq_self.mp (htaken ▸ hthrough)
  · rw [hq₁, hreceived, List.map_nil, List.append_nil]
  · rw [htl, hg₂.tracker]

lemma caughtUp_of_poll (elapsed : ℕ) (hg : Good ses s) (hstop : s.stop = false)
    (hphase : s.phase = .poll) :
    ∃ s', Reaches ses Action.ofUi (channelBound + 4) s s' ∧ CaughtUp ses s s' := by
  have he : s.Enabled .idle := ⟨hstop, hphase⟩
  obtain ⟨s', hr, hc⟩ := caughtUp_of_drain elapsed (good_step hg _ he) hstop rfl
  have hidle : Beside s (s.step ses .idle) := ⟨rfl, rfl⟩
  exact ⟨s', ((Reaches.one rfl he).trans hr).mono (by omega), hc.beside hidle⟩

/-- **The UI thread never waits.** From every state of a session that has not been left, its
own steps, as many as the channel holds messages and six, lead to a frame that shows all that
had got through by then; the capture thread need not move, and cannot hold it up. -/
theorem catches_up (ses : Session) {acts : List Action} (h : Runs ses acts)
    (hstop : (after ses acts).stop = false) (elapsed : ℕ) :
    ∃ more : List Action, more.length ≤ channelBound + 6 ∧ (∀ a ∈ more, a.ofUi = true) ∧
      Runs ses (acts ++ more) ∧ CaughtUp ses (after ses acts) (after ses (acts ++ more)) := by
  have hg := good_after h
  have key : ∃ s', Reaches ses Action.ofUi (channelBound + 6) (after ses acts) s' ∧
      CaughtUp ses (after ses acts) s' := by
    generalize after ses acts = s at hg hstop ⊢
    cases hphase : s.phase with
    | poll =>
        obtain ⟨s', hr, hc⟩ := caughtUp_of_poll elapsed hg hstop hphase
        exact ⟨s', hr.mono (by omega), hc⟩
    | drain =>
        obtain ⟨s', hr, hc⟩ := caughtUp_of_drain elapsed hg hstop hphase
        exact ⟨s', hr.mono (by omega), hc⟩
    | count =>
        obtain ⟨s₁, hr₁, hg₁, hb₁, hstop₁, hphase₁, -⟩ := frames elapsed hg hstop hphase
        obtain ⟨s', hr, hc⟩ := caughtUp_of_poll elapsed hg₁ hstop₁ hphase₁
        exact ⟨s', (hr₁.trans hr).mono (by omega), hc.beside hb₁⟩
    | status d =>
        obtain ⟨s₁, hr₁, hg₁, hb₁, hstop₁, hphase₁, -⟩ := polls elapsed hg hstop hphase
        obtain ⟨s', hr, hc⟩ := caughtUp_of_poll elapsed hg₁ hstop₁ hphase₁
        exact ⟨s', (hr₁.trans hr).mono (by omega), hc.beside hb₁⟩
  obtain ⟨s', hr, hc⟩ := key
  obtain ⟨more, hlen, hui, hruns, rfl⟩ := hr.after h
  exact ⟨more, hlen, hui, hruns, hc⟩

theorem catches_up_second :
    (after rawSession (firstFrame ++ secondFrame)).link.queue.length = 1 ∧
    ∃ more : List Action, more.length ≤ channelBound + 6 ∧ (∀ a ∈ more, a.ofUi = true) ∧
      Runs rawSession (firstFrame ++ secondFrame ++ more) ∧
      CaughtUp rawSession (after rawSession (firstFrame ++ secondFrame))
        (after rawSession (firstFrame ++ secondFrame ++ more)) :=
  ⟨by decide +kernel, catches_up rawSession (by decide +kernel) (by decide +kernel) 2⟩

end Pipeline

/-! ### Leaving -/

/-- The key press that the UI thread reads, if it reads one. -/
def Action.key? : Action → Option KeyEvent
  | .key k => some k
  | _ => none

namespace Pipeline

variable {ses : Session} {s : Pipeline}

/-- The controls of a live app as it starts. -/
def liveControls : Controls := { isLive := true, follow := true }

lemma controls_step (a : Action) (ha : s.Enabled a) :
    (s.step ses a).live.app.controls =
      run Controls.press s.live.app.controls ([a].filterMap Action.key?) := by
  cases a with
  | wait => rfl
  | key key => exact (App.controls_key ses.lower s.live.app key).1
  | recv =>
      change (s.recvOne ses).live.app.controls = _
      unfold recvOne
      split
      · rfl
      · next m queue hq => cases m.body <;> rfl
  | send =>
      change s.sendOne.live.app.controls = _
      unfold sendOne
      split <;> rfl
  | loadSkips n elapsed =>
      obtain ⟨-, ⟨dropped, hphase⟩, -⟩ := ha
      simp only [step, hphase]
      exact App.controls_retarget s.live.app s.live.tracker.snapshot _ s.live.tracker.now _
  | read r => rfl
  | halt => rfl
  | idle => rfl
  | fail => rfl
  | drained => rfl
  | loadDropped n => rfl

lemma controls_after {acts : List Action} (h : Runs ses acts) :
    (after ses acts).live.app.controls =
      run Controls.press liveControls (acts.filterMap Action.key?) := by
  induction acts using List.reverseRecOn with
  | nil => rfl
  | append_singleton p a ih =>
      obtain ⟨hp, ha⟩ := steps_snoc.mp h
      have hafter : after ses (p ++ [a]) = (after ses p).step ses a := run_snoc ..
      rw [List.filterMap_append, run_append, ← ih hp, hafter]
      exact controls_step a ha

end Pipeline

/-! ### Shutting down -/

namespace Pipeline

variable {ses : Session} {s s' : Pipeline}

/-- The capture thread has left its loop and handed over all it had. -/
structure Gone (s : Pipeline) : Prop where
  out : s.halted = true ∨ s.loop.running = false
  sent : s.pending = []
  returned : s.waiting = false

/-- The state after `stop`: no step of the UI thread can come. -/
lemma stopped_step (hstop : s.stop = true) (a : Action) (ha : s.Enabled a) :
    (s.step ses a).stop = true ∧ (s.step ses a).live = s.live := by
  cases a with
  | wait => exact ⟨hstop, rfl⟩
  | read r => exact ⟨hstop, rfl⟩
  | send =>
      change s.sendOne.stop = true ∧ s.sendOne.live = s.live
      unfold sendOne
      split <;> exact ⟨hstop, rfl⟩
  | halt => exact ⟨hstop, rfl⟩
  | key key => exact absurd (hstop.symm.trans ha.1) (by simp)
  | idle => exact absurd (hstop.symm.trans ha.1) (by simp)
  | fail => exact absurd (hstop.symm.trans ha.1) (by simp)
  | recv => exact absurd (hstop.symm.trans ha.1) (by simp)
  | drained => exact absurd (hstop.symm.trans ha.1) (by simp)
  | loadDropped n => exact absurd (hstop.symm.trans ha.1) (by simp)
  | loadSkips n elapsed => exact absurd (hstop.symm.trans ha.1) (by simp)

/-- A step that leaves the session: an I/O error of the UI thread, or a key that quits. -/
def Leaving (acts : List Action) (a : Action) : Prop :=
  a = .fail ∨ ∃ key, a = .key key ∧
    (run Controls.press liveControls (acts.filterMap Action.key?)).quits key = true

lemma stop_snoc {acts : List Action} {a : Action} (h : Runs ses (acts ++ [a])) :
    (after ses (acts ++ [a])).stop = true ↔ (after ses acts).stop = true ∨ Leaving acts a := by
  obtain ⟨hacts, ha⟩ := steps_snoc.mp h
  have hafter : after ses (acts ++ [a]) = (after ses acts).step ses a := run_snoc ..
  have hcontrols := controls_after hacts
  rw [hafter]
  change (after ses acts).Enabled a at ha
  generalize after ses acts = s at ha hcontrols ⊢
  cases hstop : s.stop with
  | true => exact iff_of_true (stopped_step hstop a ha).1 (.inl rfl)
  | false =>
      have hsame : (s.step ses a).stop = false → a ≠ .fail → (∀ key, a ≠ .key key) →
          ((s.step ses a).stop = true ↔ false = true ∨ Leaving acts a) := by
        intro hstop' hfail hkey
        refine iff_of_false (by simp [hstop']) ?_
        rintro (hf | rfl | ⟨key, rfl, -⟩)
        · simp at hf
        · exact hfail rfl
        · exact hkey key rfl
      cases a with
      | fail => exact iff_of_true rfl (.inr (.inl rfl))
      | key key =>
          have hquit := (App.controls_key ses.lower s.live.app key).2
          rw [hcontrols] at hquit
          have hdec : (s.step ses (.key key)).stop =
              decide ((handleKey ses.lower s.live.app key).2 = .quit) := rfl
          rw [hdec, decide_eq_true_iff, hquit]
          simp [Leaving]
      | send =>
          refine hsame ?_ (by simp) (by simp)
          change s.sendOne.stop = false
          unfold sendOne
          split <;> exact hstop
      | recv =>
          refine hsame ?_ (by simp) (by simp)
          change (s.recvOne ses).stop = false
          unfold recvOne
          split
          · exact hstop
          · next m queue hq => cases m.body <;> exact hstop
      | loadSkips n elapsed =>
          refine hsame ?_ (by simp) (by simp)
          obtain ⟨-, ⟨dropped, hphase⟩, -⟩ := ha
          simp only [step, hphase]
          exact hstop
      | wait => exact hsame hstop (by simp) (by simp)
      | read r => exact hsame hstop (by simp) (by simp)
      | halt => exact hsame hstop (by simp) (by simp)
      | idle => exact hsame hstop (by simp) (by simp)
      | drained => exact hsame hstop (by simp) (by simp)
      | loadDropped n => exact hsame hstop (by simp) (by simp)

/-- **What ends a session.** A session has been left exactly if its UI thread met an I/O error,
or read a key that quits by what the keys before it, and nothing else, had come to. -/
theorem left_iff (ses : Session) {acts : List Action} (h : Runs ses acts) :
    (after ses acts).stop = true ↔ ∃ p a, p ++ [a] <+: acts ∧ Leaving p a := by
  induction acts using List.reverseRecOn with
  | nil => simp [after, start]
  | append_singleton acts a ih =>
      rw [stop_snoc h, ih (steps_snoc.mp h).1]
      constructor
      · rintro (⟨p, b, hp, hl⟩ | hl)
        · exact ⟨p, b, hp.trans (List.prefix_append _ _), hl⟩
        · exact ⟨acts, a, List.prefix_rfl, hl⟩
      · rintro ⟨p, b, hp, hl⟩
        rcases List.prefix_concat_iff.mp hp with heq | hp
        · obtain ⟨rfl, hb⟩ := List.append_inj' heq rfl
          obtain rfl : b = a := by simpa using hb
          exact .inr hl
        · exact .inl ⟨p, b, hp, hl⟩

/-- Both frames, and then `q`. -/
def quitting : List Action :=
  firstFrame ++ secondFrame ++ [.loadSkips 1 2, .key ⟨.char 'q', false⟩]

theorem left_iff_quitting :
    (after rawSession quitting).stop = true ↔
      ∃ p a, p ++ [a] <+: quitting ∧ Leaving p a :=
  left_iff rawSession (by decide +kernel)

/-- Nothing can come of a capture thread that is gone, once the session is left. -/
lemma Gone.not_enabled (h : Gone s) (hstop : s.stop = true) (a : Action) : ¬ s.Enabled a := by
  intro ha
  have hout : ¬ s.AtHead := by
    rintro ⟨hrun, hhalt, -⟩
    rcases h.out with ho | ho
    · exact absurd (ho.symm.trans hhalt) (by simp)
    · exact absurd (ho.symm.trans hrun) (by simp)
  have hno : ∀ {P : Prop}, s.stop = false ∧ P → False := fun hf => by simp [hstop] at hf
  cases a with
  | wait => exact hout ha
  | read r => exact absurd (h.returned.symm.trans ha) (by simp)
  | send => exact ha h.sent
  | halt => exact hout ha.2
  | key key => exact hno ha
  | idle => exact hno ha
  | fail => exact hno ha
  | recv => exact hno ha
  | drained => exact hno ha
  | loadDropped n => exact hno ha
  | loadSkips n elapsed => exact hno ha

/-- The capture thread is never stuck: it is gone, or it has events to send, or it waits and
whatever its handle returns is a step, or it can look at the flag. -/
lemma gone_or_enabled (hstop : s.stop = true) :
    Gone s ∨ s.Enabled .send ∨ (∀ r, s.Enabled (.read r)) ∨ s.Enabled .halt := by
  by_cases hpend : s.pending = []
  · cases hwait : s.waiting with
    | true => exact .inr (.inr (.inl fun r => hwait))
    | false =>
        by_cases hout : s.halted = true ∨ s.loop.running = false
        · exact .inl ⟨hout, hpend, hwait⟩
        · simp only [not_or, Bool.not_eq_true, Bool.not_eq_false] at hout
          exact .inr (.inr (.inr ⟨hstop, hout.2, hout.1, hwait, hpend⟩))
  · exact .inr (.inl hpend)

/-- What the `n` steps of a session that has been left came to, `k` of them looks that missed the
flag: the read that was under way, one more for each such look, the messages that came of them,
and the look that found the flag set. -/
structure Spent (s₀ : Pipeline) (n k : ℕ) (s : Pipeline) : Prop where
  stop : s.stop = true
  reads : s.reads.length + s.waiting.toNat = s₀.reads.length + s₀.waiting.toNat + k
  steps : n + s₀.link.offered.length + s₀.reads.length + s₀.halted.toNat =
    s.link.offered.length + s.reads.length + s.halted.toNat + k

lemma Spent.next {s₀ : Pipeline} {n k : ℕ} (h : Spent s₀ n k s) {a : Action}
    (ha : s.Enabled a) :
    Spent s₀ (n + 1) (k + [a].count .wait) (s.step ses a) := by
  have hno : ∀ {P : Prop}, s.stop = false ∧ P → False := fun hf => by simp [h.stop] at hf
  obtain ⟨hstop, hreads, hsteps⟩ := h
  cases a with
  | wait =>
      have hwait : s.waiting = false := ha.2.2.1
      rw [hwait, Bool.toNat_false] at hreads
      refine ⟨hstop, ?_, ?_⟩
      · change s.reads.length + 1 = _ + (k + 1)
        omega
      · change _ = s.link.offered.length + s.reads.length + s.halted.toNat + (k + 1)
        omega
  | read r =>
      have hwait : s.waiting = true := ha
      have hoff : (s.readOne ses r).link.offered = s.link.offered := by
        unfold readOne
        dsimp only
        split_ifs <;> rfl
      have hlen : (s.readOne ses r).reads.length = s.reads.length + 1 := List.length_append
      rw [hwait, Bool.toNat_true] at hreads
      refine ⟨hstop, ?_, ?_⟩
      · change (s.readOne ses r).reads.length + 0 = _ + k
        omega
      · change _ = (s.readOne ses r).link.offered.length + (s.readOne ses r).reads.length +
          s.halted.toNat + k
        rw [hoff, hlen]
        omega
  | send =>
      obtain ⟨ev, pending, hp⟩ := List.exists_cons_of_ne_nil ha
      have hone : s.step ses .send =
          { s with pending, link := s.link.offer channelBound .dropped ev } := by
        simp only [step, sendOne, hp]
      rw [hone]
      refine ⟨hstop, hreads, ?_⟩
      change _ = (s.link.offer channelBound .dropped ev).offered.length + s.reads.length +
        s.halted.toNat + k
      rw [Link.offered_offer, List.length_append, List.length_singleton]
      omega
  | halt =>
      have hhalt : s.halted = false := ha.2.2.1
      rw [hhalt, Bool.toNat_false] at hsteps
      refine ⟨hstop, hreads, ?_⟩
      change _ = s.link.offered.length + s.reads.length + 1 + k
      omega
  | key key => exact (hno ha).elim
  | idle => exact (hno ha).elim
  | fail => exact (hno ha).elim
  | recv => exact (hno ha).elim
  | drained => exact (hno ha).elim
  | loadDropped n => exact (hno ha).elim
  | loadSkips n elapsed => exact (hno ha).elim

lemma spent_run {s₀ : Pipeline} (hstop : s₀.stop = true) {more : List Action}
    (h : Steps (step ses) s₀ Enabled more) :
    Spent s₀ more.length (more.count .wait) (run (step ses) s₀ more) := by
  induction more using List.reverseRecOn with
  | nil => exact ⟨hstop, rfl, by simp⟩
  | append_singleton p a ih =>
      obtain ⟨hp, ha⟩ := steps_snoc.mp h
      rw [run_snoc, List.length_append, List.length_singleton, List.count_append]
      exact (ih hp).next ha

/-- **Leaving is final, and nothing holds it up.** Once a session is left the app stays as it
is. However the capture thread goes on, it is done after what is left of the read it is in, a
step for each event that comes of it or is still to be sent, which needs no room and no one to
receive it, and one look at the flag; each look that still misses the flag costs one read more.
Until then it always has a step, though a read returns when it will; and after it neither
thread has one. -/
theorem shuts_down (ses : Session) {acts : List Action}
    (hstop : (after ses acts).stop = true) :
    (∀ more, Runs ses (acts ++ more) →
      (after ses (acts ++ more)).live = (after ses acts).live) ∧
    ∀ more, Runs ses (acts ++ more) →
      let s := after ses (acts ++ more)
      let missed := more.count .wait
      s.reads.length ≤ (after ses acts).reads.length + 1 + missed ∧
      more.length + (after ses acts).link.offered.length ≤
        (ses.captured s.reads).events.length + 2 + 2 * missed ∧
      ((Gone s ∧ ∀ a, ¬ s.Enabled a) ∨
        s.Enabled .send ∨ (∀ r, s.Enabled (.read r)) ∨ s.Enabled .halt) := by
  refine ⟨fun more hmore => ?_, fun more hmore => ?_⟩
  · obtain ⟨-, hsteps⟩ := steps_append.mp hmore
    have happ : after ses (acts ++ more) = run (step ses) (after ses acts) more := run_append ..
    rw [happ]
    exact (inv_of_steps (P := fun s : Pipeline => s.stop = true ∧ s.live = (after ses acts).live)
      ⟨hstop, rfl⟩ (fun s a hs ha => ⟨(stopped_step hs.1 a ha).1,
        (stopped_step hs.1 a ha).2.trans hs.2⟩) hsteps).2
  · obtain ⟨-, hsteps⟩ := steps_append.mp hmore
    have hspent : Spent (after ses acts) more.length (more.count .wait)
        (after ses (acts ++ more)) := by
      have happ : after ses (acts ++ more) = run (step ses) (after ses acts) more :=
        run_append ..
      rw [happ]
      exact spent_run hstop hsteps
    obtain ⟨hstop', hreads, hcount⟩ := hspent
    have hlen := congrArg List.length (good_after hmore).events
    rw [List.length_append] at hlen
    have hw := Bool.toNat_le (after ses acts).waiting
    have hh := Bool.toNat_le (after ses (acts ++ more)).halted
    refine ⟨by omega, by omega, ?_⟩
    exact (gone_or_enabled hstop').imp_left fun hgone => ⟨hgone, hgone.not_enabled hstop'⟩

theorem shuts_down_quitting :
    let left := after rawSession quitting
    Runs rawSession quitting ∧ left.waiting = true ∧
    (∀ more, Runs rawSession (quitting ++ more) →
      (after rawSession (quitting ++ more)).live = left.live) ∧
    ∀ more, Runs rawSession (quitting ++ more) →
      let s := after rawSession (quitting ++ more)
      let missed := more.count .wait
      s.reads.length ≤ left.reads.length + 1 + missed ∧
      more.length + left.link.offered.length ≤
        (rawSession.captured s.reads).events.length + 2 + 2 * missed ∧
      ((Gone s ∧ ∀ a, ¬ s.Enabled a) ∨
        s.Enabled .send ∨ (∀ r, s.Enabled (.read r)) ∨ s.Enabled .halt) :=
  ⟨by decide +kernel, by decide +kernel, shuts_down rawSession (by decide +kernel)⟩

end Pipeline

/-! ### Live and recorded -/

def Item.isSegment : Item → Bool
  | .segment _ => true
  | .tick _ => false

/-- A lifecycle with its clock set aside. -/
def Life.still (l : Life) : Life := { l with now := Nanos.sat 0 }

section Still

variable {cfg cfg' : EngineConfig} {l l' : Life}

/-- A segment is given to a connection by no clock. -/
lemma still_segment (hd : cfg.deadAfter = cfg'.deadAfter)
    (hr : cfg.resetThreshold = cfg'.resetThreshold) (h : l.still = l'.still) (seg : Segment) :
    (l.observe cfg (.segment seg)).still = (l'.observe cfg' (.segment seg)).still := by
  have hstill : ∀ l : Life, (l.observe cfg (.segment seg)).still =
      (l.still.observe cfg' (.segment seg)).still := by
    intro l
    have hj : l.joins cfg seg = l.still.joins cfg' seg := by
      simp only [Life.joins, Life.still, Ceiling.shouldSplit_congr hd hr]
    cases hjoin : l.joins cfg seg with
    | some i => rw [Life.observe_join hjoin, Life.observe_join (hj ▸ hjoin)]; rfl
    | none => rw [Life.observe_open hjoin, Life.observe_open (hj ▸ hjoin)]; rfl
  have hstill' : (l'.observe cfg' (.segment seg)).still =
      (l'.still.observe cfg' (.segment seg)).still := by
    have hj : l'.joins cfg' seg = l'.still.joins cfg' seg := rfl
    cases hjoin : l'.joins cfg' seg with
    | some i => rw [Life.observe_join hjoin, Life.observe_join (hj ▸ hjoin)]; rfl
    | none => rw [Life.observe_open hjoin, Life.observe_open (hj ▸ hjoin)]; rfl
  rw [hstill l, hstill', h]

/-- Within the window a tick evicts nothing. -/
lemma still_tick {w : Nanos} (hw : cfg.retention.window = some w) {at_ : Nanos}
    (hle : (max l.now at_).ns ≤ w.ns) : (l.observe cfg (.tick at_)).still = l.still := by
  have hnone : ∀ c : ConnTrack, c.evictable cfg ((max l.now at_).ns - w.ns) (max l.now at_) =
      false := by
    intro c
    rw [Nat.sub_eq_zero_of_le hle]
    simp [ConnTrack.evictable]
  rw [Life.observe_tick_evict hw]
  unfold Life.evictDead
  have hkeep : (l.conns.filter fun c =>
      !c.evictable cfg ((max l.now at_).ns - w.ns) (max l.now at_)) = l.conns :=
    List.filter_eq_self.mpr fun c _ => by rw [hnone c, Bool.not_false]
  dsimp only
  rw [hkeep, if_pos rfl]
  rfl

/-- **Within the window** the connections are those of a tracker that keeps everything and is
given the segments alone. -/
lemma still_track (cfg' : EngineConfig) {w : Nanos} (hw : cfg.retention.window = some w)
    (hd : cfg.deadAfter = cfg'.deadAfter)
    (hr : cfg.resetThreshold = cfg'.resetThreshold) {items : List Item}
    (hle : (Tracker.track cfg items).now.ns ≤ w.ns) :
    (Tracker.track cfg items).life.still =
      (Tracker.track cfg' (items.filter Item.isSegment)).life.still := by
  induction items using List.reverseRecOn with
  | nil => rw [List.filter_nil, life_track, life_track, run_nil, run_nil]
  | append_singleton p x ih =>
      rw [Tracker.track_snoc] at hle
      have ih' := ih ((now_le_observe cfg p x).trans hle)
      rw [Tracker.track_snoc, life_observe, List.filter_append]
      cases x with
      | segment seg =>
          rw [List.filter_cons_of_pos rfl, List.filter_nil, Tracker.track_snoc, life_observe]
          exact still_segment hd hr ih' seg
      | tick at_ =>
          have hnow := now_step (t := Tracker.track cfg p) (by rw [hw]; rfl) (.tick at_)
          rw [hnow] at hle
          rw [List.filter_cons_of_neg (by simp [Item.isSegment]), List.filter_nil, List.append_nil,
            ← ih']
          exact still_tick hw hle

end Still

namespace Pipeline

variable {ses : Session} {s : Pipeline}

/-- The names folded are those received. -/
def Named (s : Pipeline) : Prop :=
  s.live.app.names =
    (s.link.received.filterMap LiveCapture.LiveEvent.name?).foldl NameTable.observe {}

lemma named_recvOne (h : Named s) : Named (s.recvOne ses) := by
  unfold recvOne
  split
  · exact h
  · next m queue hq =>
      have hreceived := Link.received_take hq
      unfold Named
      dsimp only
      rw [hreceived, List.filterMap_append, List.foldl_append, ← h]
      cases m.body <;> rfl

lemma named_step (h : Named s) (a : Action) (ha : s.Enabled a) : Named (s.step ses a) := by
  have hsame : ∀ {s' : Pipeline}, s'.live.app.given.names = s.live.app.given.names →
      s'.link.received = s.link.received → Named s' := by
    intro s' hn hr
    unfold Named
    rw [hr, ← h]
    exact hn
  cases a with
  | wait => exact hsame rfl rfl
  | read r =>
      refine hsame rfl ?_
      change (readOne ses s r).link.received = _
      unfold readOne
      dsimp only
      split_ifs <;> rfl
  | send =>
      change Named s.sendOne
      unfold sendOne
      split
      · exact h
      · exact hsame rfl (by rw [Link.received, Link.taken_offer]; rfl)
  | halt => exact hsame rfl rfl
  | key key => exact hsame (congrArg Given.names (App.given_key ses.lower s.live.app key)) rfl
  | idle => exact hsame rfl rfl
  | fail => exact hsame rfl rfl
  | recv => exact named_recvOne h
  | drained => exact hsame rfl rfl
  | loadDropped n => exact hsame rfl rfl
  | loadSkips n elapsed =>
      obtain ⟨-, ⟨dropped, hphase⟩, -⟩ := ha
      simp only [step, hphase]
      have hgiven := App.given_retarget ses.lower s.live.app s.live.tracker.snapshot
        (s.live.tracker.retentionHorizon ses.config) s.live.tracker.now (statusOf dropped n)
      have hnames := congrArg Given.names hgiven
      exact hsame hnames rfl

lemma named_after {acts : List Action} (h : Runs ses acts) : Named (after ses acts) :=
  inv_of_steps (P := Named) (show Named (start ses) from rfl)
    (fun _ a hs ha => named_step hs a ha) h

/-- When nothing was dropped and nothing is under way, all that was captured is folded. -/
lemma received_all (hg : Good ses s) (hdrop : s.link.counts .dropped = 0)
    (hqueue : s.link.queue = []) (hpend : s.pending = []) :
    s.link.received = (ses.captured s.reads).events := by
  have hpre := hg.link.exact_of_seen_zero (Nat.le_zero.mp (hdrop ▸ hg.link.seen_le .dropped))
  have hlen := hg.link.balance
  rw [hdrop, hqueue, List.length_nil] at hlen
  have hev := hg.events
  rw [hpend, List.append_nil] at hev
  rw [← hev]
  refine hpre.eq_of_length ?_
  rw [Link.received, List.length_map]
  omega

/-- A connection's view is of its core. -/
lemma views_of_still {t t' : Tracker} (h : t.life.still = t'.life.still) :
    t.conns.map ConnTrack.view = t'.conns.map ConnTrack.view := by
  have hviews : ∀ t : Tracker,
      t.conns.map ConnTrack.view = t.life.still.conns.map ConnTrack.view := by
    intro t
    change _ = (t.conns.map core).map ConnTrack.view
    rw [List.map_map]
    rfl
  calc t.conns.map ConnTrack.view
      = t.life.still.conns.map ConnTrack.view := hviews t
    _ = t'.life.still.conns.map ConnTrack.view := by rw [h]
    _ = t'.conns.map ConnTrack.view := (hviews t').symm

lemma filter_items (events : List LiveCapture.LiveEvent) :
    (events.filterMap LiveCapture.LiveEvent.item?).filter Item.isSegment =
      (events.filterMap LiveCapture.LiveEvent.segment?).map Item.segment := by
  induction events with
  | nil => rfl
  | cons e es ih =>
      rcases e with (seg | t) | obs
      · exact congrArg (Item.segment seg :: ·) ih
      · exact ih
      · exact ih

/-- Within its window a session that has folded all it captured shows what a tracker that keeps
everything makes of the segments. -/
lemma connections_captured (hg : Good ses s) (hdrop : s.link.counts .dropped = 0)
    (hqueue : s.link.queue = []) (hpend : s.pending = [])
    (hwithin : s.live.tracker.now.ns ≤ ses.retentionSecs * NS_PER_SEC) :
    s.live.tracker.snapshot.connections =
      (Tracker.track {} (((ses.captured s.reads).events.filterMap
        LiveCapture.LiveEvent.segment?).map Item.segment)).conns.map ConnTrack.view := by
  have htracker := hg.tracker
  rw [received_all hg hdrop hqueue hpend] at htracker
  rw [htracker] at hwithin
  -- The ticks among the items have evicted nothing.
  have hstill : (Tracker.track ses.config _).life.still = (Tracker.track {} _).life.still :=
    still_track {} (show ses.config.retention.window = some _ from rfl) rfl rfl
      (le_min hwithin (Nanos.le_max _))
  rw [Live.connections_snapshot, htracker, views_of_still hstill, filter_items]

/-- No read has failed while the capture loop runs. -/
lemma ne_failed_of_running {reads : List Read}
    (h : (ses.captured reads).loop.running = true) : ∀ r ∈ reads, r ≠ .failed := by
  induction reads using List.reverseRecOn with
  | nil => simp
  | append_singleton q r ih =>
      have hsnoc : ses.captured (q ++ [r]) =
          (ses.captured q).next ses.build ses.lib ses.capture r := run_snoc _ _ q r
      rw [hsnoc] at h
      have hrun := LiveCapture.running_of_next h
      intro r' hr'
      rcases List.mem_append.mp hr' with hr' | hr'
      · exact ih hrun r' hr'
      · rw [List.mem_singleton.mp hr']
        rintro rfl
        rw [LiveCapture.next_of_running hrun] at h
        exact absurd h (by simp [LiveCapture.pass, LiveCapture.ended])

/-- Whatever was read last, the capture loop was running before. -/
def Begun (ses : Session) (s : Pipeline) : Prop :=
  ∀ q r, s.reads = q ++ [r] → (ses.captured q).loop.running = true

lemma reads_recvOne (s : Pipeline) : (s.recvOne ses).reads = s.reads := by
  unfold recvOne
  split
  · rfl
  · next m queue hq => cases m.body <;> rfl

lemma begun_step (hg : Good ses s) (h : Begun ses s) (a : Action) (ha : s.Enabled a) :
    Begun ses (s.step ses a) := by
  have hsame : ∀ {s' : Pipeline}, s'.reads = s.reads → Begun ses s' := by
    intro s' hr q r hq
    exact h q r (hr.symm.trans hq)
  cases a with
  | wait => exact hsame rfl
  | read r =>
      intro q r' hq
      obtain ⟨rfl, -⟩ := List.append_inj' (show s.reads ++ [r] = q ++ [r'] from hq) rfl
      rw [← hg.loop]
      exact (hg.waits ha).1
  | send =>
      refine hsame ?_
      change s.sendOne.reads = _
      unfold sendOne
      split <;> rfl
  | halt => exact hsame rfl
  | key key => exact hsame rfl
  | idle => exact hsame rfl
  | fail => exact hsame rfl
  | recv => exact hsame (reads_recvOne s)
  | drained => exact hsame rfl
  | loadDropped n => exact hsame rfl
  | loadSkips n elapsed =>
      obtain ⟨-, ⟨dropped, hphase⟩, -⟩ := ha
      refine hsame ?_
      simp only [step, hphase]
      rfl

/-- A read fails only as the last one, and nothing comes of it. -/
lemma reads_settled {acts : List Action} (h : Runs ses acts) {q rest : List Read}
    (hreads : (after ses acts).reads = q ++ rest) :
    ∃ good, (∀ r ∈ good, r ≠ .failed) ∧
      good.filterMap Read.packet? = rest.filterMap Read.packet? ∧
      (ses.captured (after ses acts).reads).events = (ses.captured (q ++ good)).events := by
  have hbegun : Begun ses (after ses acts) :=
    (inv_of_steps (P := fun s => Good ses s ∧ Begun ses s)
      ⟨good_start ses, fun q r hq => by simp [start] at hq⟩
      (fun s a hs ha => ⟨good_step hs.1 a ha, begun_step hs.1 hs.2 a ha⟩) h).2
  rcases List.eq_nil_or_concat rest with rfl | ⟨init, r, rfl⟩
  · exact ⟨[], by simp, rfl, by rw [hreads]⟩
  · rw [List.concat_eq_append] at hreads ⊢
    rw [← List.append_assoc] at hreads
    have hrun := hbegun _ _ hreads
    have hok := ne_failed_of_running hrun
    have hinit : ∀ r ∈ init, r ≠ .failed := fun r hr => hok r (List.mem_append_right _ hr)
    by_cases hr : r = .failed
    · subst hr
      refine ⟨init, hinit, by simp [Read.packet?], ?_⟩
      rw [hreads, captured_snoc _ _ hrun]
      exact List.append_nil _
    · refine ⟨init ++ [r], fun r' hr' => ?_, rfl, by rw [hreads, List.append_assoc]⟩
      rcases List.mem_append.mp hr' with hr' | hr'
      · exact hinit r' hr'
      · rw [List.mem_singleton.mp hr']
        exact hr

/-- A timeout, two packets, another timeout between them, and a read that fails; all received
before the first frame's loads. -/
def wholeSession : List Action :=
  [.wait, .read (.timeoutExpired (some 7)), .send,
    .wait, .read (.packet ⟨0, 1, 40#32, synPacket⟩), .send,
    .wait, .read (.timeoutExpired (some 4007)), .send,
    .wait, .read (.packet ⟨0, 6, 40#32, synPacket⟩), .send,
    .wait, .read .failed, .idle, .recv, .recv, .recv, .recv, .drained, .loadDropped 0]

/-- The two packets as a file. -/
def wholeFile : List Block :=
  [.sectionHeader, .interfaceDescription 101#32 (some 1000000),
    .enhancedPacket 0#32 0#32 1#32 40#32 synPacket, .enhancedPacket 0#32 0#32 6#32 40#32 synPacket]

lemma returns_wholeFile : List.Forall₂ (LiveCapture.Returns ⟨.rawIp, false⟩)
    (wholeFile.filterMap (LiveCapture.packetRecord ⟨.rawIp, false⟩))
    [⟨0, 1, 40#32, synPacket⟩, ⟨0, 6, 40#32, synPacket⟩] :=
  .cons ⟨by decide, by decide, rfl, by decide, rfl, rfl⟩
    (.cons ⟨by decide, by decide, rfl, by decide, rfl, rfl⟩ .nil)

end Pipeline

end TcpVisr
