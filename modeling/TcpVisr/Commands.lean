import TcpVisr.Collection
import TcpVisr.Controls
import TcpVisr.Frames
import TcpVisr.Libpcap
import TcpVisr.Traffic

/-!
The commands over a capture file: `parse`, `conns` and `replay`.

What a command prints or shows is a function of what the faucet hands it. `conns` and
`replay` track the same items under different settings, and list the same connections. While
`replay` runs, whatever keys are pressed and however time passes, its rows say what a tracker
knows that has read the capture up to the cursor; which connections have a row, the whole
capture decides.
-/

namespace TcpVisr

open Lib.Runs Slots Plan Lifecycle Index Steps States Queries Seek

/-! ### Text -/

/-- `{s}.{ns:09}s`. -/
def Nanos.display (t : Nanos) : String :=
  let digits := Nat.toDigits 10 (t.ns % NS_PER_SEC)
  toString (t.ns / NS_PER_SEC) ++ "." ++
    String.ofList (List.replicate (9 - digits.length) '0' ++ digits) ++ "s"

def FlowKey.display (f : FlowKey) : String :=
  f.source.display ++ " -> " ++ f.destination.display

/-- The names of the bits set, or a dot. -/
def TcpFlags.display (f : TcpFlags) : String :=
  let parts := [(TcpFlags.SYN, "SYN"), (TcpFlags.ACK, "ACK"), (TcpFlags.FIN, "FIN"),
    (TcpFlags.RST, "RST"), (TcpFlags.PSH, "PSH"), (TcpFlags.URG, "URG"), (TcpFlags.ECE, "ECE"),
    (TcpFlags.CWR, "CWR"), (TcpFlags.NS, "NS")]
  let wrote := (parts.filter fun p => f.bits &&& p.1 != 0).map Prod.snd
  if wrote.isEmpty then "." else "|".intercalate wrote

/-- The counts that are not zero, by name. -/
def SkipCounts.nonzero (c : SkipCounts) : List (String × ℕ) :=
  [("non_tcp", c.nonTcp), ("malformed", c.malformed),
    ("unsupported_link_type", c.unsupportedLinkType), ("ipv6_fragment", c.ipv6Fragment),
    ("unsupported_ext_chain", c.unsupportedExtChain), ("truncated", c.truncated)].filter
      fun p => 0 < p.2

/-- The total, and what it is made of unless that is nothing. -/
def SkipCounts.summary (c : SkipCounts) : String :=
  let reasons := c.nonzero.map fun p => p.1 ++ "=" ++ toString p.2
  let breakdown := if reasons.isEmpty then "" else " (" ++ ", ".intercalate reasons ++ ")"
  "skipped: " ++ toString c.total ++ " total" ++ breakdown

/-- A line of `parse`. -/
def segmentLine (s : Segment) : String :=
  s.ts.display ++ " " ++ s.flow.display ++ " " ++ s.flags.display ++ " seq=" ++
    toString s.seq.toNat ++ " ack=" ++ toString s.ack.toNat ++ " win=" ++
    toString s.window.toNat ++ " len=" ++ toString s.payloadLen.toNat

/-- `last_at` after `opened_at`. -/
def Connection.duration (c : Connection) : Nanos := c.lastAt.saturatingSub c.openedAt

/-- A line of `conns`. -/
def connLine (c : Connection) : String :=
  let marker := if c.originInferred then " (mid-stream)" else ""
  c.origin.display ++ " -> " ++ c.responder.display ++ "  state=" ++ c.state.debug ++
    "  inst=" ++ toString c.id.inst ++ "  bytes=" ++ toString c.bytesO2r ++ "/" ++
    toString c.bytesR2o ++ "  segs=" ++ toString c.segments ++ "  dur=" ++ c.duration.display ++
    marker

/-! ### The commands -/

section Commands

variable (lib : Etherparse) (path : String) (file : Except String (Except String Container))

/-- `run_parse`: the lines it has printed, and the error it ends with, if any. -/
def runParse : List String × Option IngestError :=
  let (r, result) := parseFileVisitNamed lib path file
  let segments := r.items.filterMap fun
    | .segment s => some s
    | .tick _ => none
  let lines := segments.map segmentLine
  match result with
  | .error e => (lines, some e)
  | .ok (_, skipped) =>
    (lines ++ [toString segments.length ++ " segments, " ++ skipped.summary], none)

/-- The connections that `run_conns` prints, and the skips. -/
def listConns : Except IngestError (List Connection × SkipCounts) :=
  match parseFileVisitNamed lib path file with
  | (_, .error e) => .error e
  | (r, .ok (_, skipped)) => .ok ((Tracker.track {} r.items).intoConnections, skipped)

/-- `run_conns`: the lines it prints. -/
def runConns : Except IngestError (List String) := do
  let (conns, skipped) ← listConns lib path file
  return conns.map connLine ++
    [toString conns.length ++ " connections, " ++ skipped.summary]

/-- What `main` leaves of a command: the lines printed, and the line on standard error if it
exits with a failure. -/
structure Output where
  lines : List String
  error : Option String
  deriving DecidableEq

/-- `error: {e}`. -/
def IngestError.line (e : IngestError) : String := "error: " ++ e.message

/-- `main` on `parse`. -/
def mainParse : Output :=
  let (lines, error) := runParse lib path file
  { lines, error := error.map IngestError.line }

/-- `main` on `conns`. -/
def mainConns : Output :=
  match runConns lib path file with
  | .ok lines => { lines, error := none }
  | .error e => { lines := [], error := some e.line }

/-- The failures of `run_replay`. -/
inductive ReplayFailure
  | zeroCeiling
  | noTerminal
  | ingest (e : IngestError)
  | metrics (e : MetricError)
  deriving DecidableEq

/-- The configuration of replay: all five timelines, and the sample ceiling. -/
def replayEngineConfig (maxSamples : ℕ) : EngineConfig where
  collectStateTimeline := true
  collectSeqTimeline := true
  collectInflightTimeline := true
  collectRttTimeline := true
  collectThroughputTimeline := true
  retention := .failFast maxSamples

variable (lower : String → String)

/-- `build_replay_app`. -/
def buildReplayApp (cfg : EngineConfig) : Except ReplayFailure App :=
  match parseFileVisitNamed lib path file with
  | (_, .error e) => .error (.ingest e)
  | (r, .ok (_, skipped)) =>
    let names := r.names.foldl NameTable.observe {}
    match (Tracker.track cfg r.items).intoTimeline cfg with
    | .error e => .error (.metrics e)
    | .ok timeline =>
      let capped := if 0 < names.dropped then ", names capped" else ""
      let title := "tcp-visr — " ++ path ++ "  (" ++ toString timeline.entries.length ++
        " connections, " ++ toString names.len ++ " names, skipped " ++ toString skipped.total ++
        capped ++ ")"
      .ok (App.newWithNames lower timeline names title)

/-- `run_replay`, up to the event loop it starts. -/
def runReplay (terminal : Bool) (maxSamples : ℕ) : Except ReplayFailure App :=
  if maxSamples = 0 then .error .zeroCeiling
  else if !terminal then .error .noTerminal
  else buildReplayApp lib path file lower (replayEngineConfig maxSamples)

end Commands

/-! ### One capture, three commands -/

section Commands

variable {lib : Etherparse} {path : String} {file : Except String (Except String Container)}
  {lower : String → String} {maxSamples : ℕ} {app : App}

/-- What `conns` lists of a file that parses. -/
lemma listConns_of_parse {parse : ReplayParse} (h : parseFile lib path file = .ok parse) :
    listConns lib path file =
      .ok ((Tracker.track {} parse.items).intoConnections, parse.skipped) := by
  unfold parseFile at h
  unfold listConns
  generalize parseFileVisitNamed lib path file = v at h ⊢
  obtain ⟨r, e | ⟨link, skipped⟩⟩ := v
  · simp at h
  · obtain rfl := Except.ok.inj h
    rfl

/-- The segments that `conns` counts. -/
lemma sum_connections (items : List Item) :
    (((Tracker.track {} items).intoConnections).map Connection.segments).sum =
      (Traffic.allSegments items).length := by
  have hperm : (Tracker.track {} items).intoConnections.Perm
      ((Tracker.track {} items).conns.map ConnTrack.view) := List.perm_insertionSort _ _
  calc (((Tracker.track {} items).intoConnections).map Connection.segments).sum
      = (((Tracker.track {} items).conns.map ConnTrack.view).map Connection.segments).sum :=
        (hperm.map _).sum_eq
    _ = ((Tracker.track {} items).conns.map ConnTrack.segments).sum := by
        rw [List.map_map]
        rfl
    _ = (Traffic.allSegments items).length := Traffic.sum_segments rfl items

/-- **Two readings of one capture.** `parse` and `conns` fail alike, with the same line on
standard error; and where they do not, both end with the same account of what was skipped, and
the segments that `conns` counts over its connections are the lines that `parse` has printed. -/
theorem parse_and_conns (lib : Etherparse) (path : String)
    (file : Except String (Except String Container)) :
    (∃ lines e, runParse lib path file = (lines, some e) ∧
      runConns lib path file = .error e ∧
      mainParse lib path file = ⟨lines, some e.line⟩ ∧
      mainConns lib path file = ⟨[], some e.line⟩) ∨
    ∃ lines conns skipped, listConns lib path file = .ok (conns, skipped) ∧
      lines.length = (conns.map Connection.segments).sum ∧
      runParse lib path file = (lines ++
        [toString (conns.map Connection.segments).sum ++ " segments, " ++ skipped.summary], none) ∧
      runConns lib path file = .ok (conns.map connLine ++
        [toString conns.length ++ " connections, " ++ skipped.summary]) ∧
      (mainParse lib path file).error = none ∧ (mainConns lib path file).error = none := by
  unfold mainParse mainConns runParse runConns listConns
  generalize parseFileVisitNamed lib path file = v
  obtain ⟨r, e | ⟨link, skipped⟩⟩ := v
  · exact .inl ⟨_, e, rfl, rfl, rfl, rfl⟩
  · refine .inr ⟨(Traffic.allSegments r.items).map segmentLine, _, skipped, rfl, ?_, ?_, rfl,
      rfl, rfl⟩
    · rw [List.length_map, sum_connections]
    · rw [sum_connections]
      rfl

/-- What an app was built from. -/
lemma built (h : runReplay lib path file lower true maxSamples = .ok app) :
    ∃ parse, parseFile lib path file = .ok parse ∧ 0 < maxSamples ∧
      listConns lib path file =
        .ok ((Tracker.track {} parse.items).intoConnections, parse.skipped) ∧
      ∃ timeline title, (Tracker.track (replayEngineConfig maxSamples) parse.items).intoTimeline
          (replayEngineConfig maxSamples) = .ok timeline ∧
        app = App.newWithNames lower timeline (parse.names.foldl NameTable.observe {}) title := by
  unfold runReplay at h
  split at h
  · simp at h
  · next hpos =>
      rw [Bool.not_true, if_neg (by simp)] at h
      unfold buildReplayApp at h
      unfold parseFile listConns
      generalize parseFileVisitNamed lib path file = v at h ⊢
      obtain ⟨r, e | ⟨link, skipped⟩⟩ := v
      · simp at h
      · dsimp only at h
        split at h
        · simp at h
        · next timeline htl =>
            exact ⟨_, rfl, Nat.pos_of_ne_zero hpos, rfl, timeline, _, htl,
              (Except.ok.inj h).symm⟩

/-- Settings without a window that open connections alike track the same lives. -/
lemma life_replayConfig (maxSamples : ℕ) (items : List Item) :
    (Tracker.track (replayEngineConfig maxSamples) items).life = (Tracker.track {} items).life :=
  Ceiling.life_congr (replayEngineConfig maxSamples) {} rfl rfl rfl rfl items

lemma connections_withSeq (cs : List ConnTrack) :
    (Timeline.withSeq (cs.map ConnTrack.connSeries)).connections = cs.map ConnTrack.view := by
  simp [Timeline.withSeq, Timeline.withSeqEnding, Timeline.connections, Timeline.entry,
    List.map_map, Function.comp_def, ConnTrack.connSeries]

/-- Keys and ticks leave what the app was given. -/
lemma given_of_not_brings (app : App) {events : List AppEvent}
    (he : ∀ e ∈ events, e.brings = false) :
    (run (App.handle lower) app events).given = app.given := by
  have hnone : events.filter AppEvent.brings = [] := by simpa using he
  rw [App.given_run, hnone]
  rfl

/-- **Replay lists what conns lists.** Whatever keys are pressed and however time passes, the
timeline of a replay that starts has the connections that `conns` prints for the same file. -/
theorem replay_lists_conns (h : runReplay lib path file lower true maxSamples = .ok app)
    {events : List AppEvent} (he : ∀ e ∈ events, e.brings = false) :
    ∃ conns skipped, listConns lib path file = .ok (conns, skipped) ∧
      (run (App.handle lower) app events).timeline.connections.Perm conns := by
  obtain ⟨parse, -, -, hconns, timeline, title, htl, happ⟩ := built h
  refine ⟨_, _, hconns, ?_⟩
  have hsame : (run (App.handle lower) app events).timeline = app.timeline :=
    congrArg Given.timeline (given_of_not_brings app he)
  obtain ⟨-, rfl⟩ := timeline_of_ok htl
  rw [hsame, happ]
  change (Timeline.withSeq _).connections.Perm _
  rw [connections_withSeq,
    ← Ceiling.intoConnections_congr (life_replayConfig maxSamples parse.items)]
  exact (List.perm_insertionSort _ _).symm

def twoPacketFile : Except String (Except String Container) := .ok (.ok ⟨twoPackets 5, none⟩)

lemma replay_twoPacketFile :
    ∃ app, runReplay headerSlicer "a.pcapng" twoPacketFile String.toLower true 100 = .ok app := by
  have hok : (runReplay headerSlicer "a.pcapng" twoPacketFile String.toLower true 100).isOk := by
    decide +kernel
  cases h : runReplay headerSlicer "a.pcapng" twoPacketFile String.toLower true 100 with
  | error e =>
      rw [h] at hok
      simp [Except.isOk, Except.toBool] at hok
  | ok app => exact ⟨app, rfl⟩

def stepThenTick : List AppEvent := [.key ⟨.char '.', false⟩, .tick (Nanos.sat 9)]

theorem replay_lists_conns_twoPackets :
    ∃ app conns skipped,
      runReplay headerSlicer "a.pcapng" twoPacketFile String.toLower true 100 = .ok app ∧
      listConns headerSlicer "a.pcapng" twoPacketFile = .ok (conns, skipped) ∧
      (run (App.handle String.toLower) app stepThenTick).timeline.connections.Perm conns := by
  obtain ⟨app, happ⟩ := replay_twoPacketFile
  obtain ⟨conns, skipped, hconns, hperm⟩ := replay_lists_conns happ
    (show ∀ e ∈ stepThenTick, e.brings = false by simp [stepThenTick, AppEvent.brings])
  exact ⟨app, conns, skipped, happ, hconns, hperm⟩

/-! ### Time travel -/

/-- The row of a connection as it is tracked, if the query finds it. -/
def rowAt (lower : String → String) (names : NameTable) (query : String) (d : ConnTrack) :
    Option ConnRow :=
  let host := names.resolve d.responder.ip
  let search := App.searchPrefix lower d.view host ++ " " ++ lower d.state.debug
  if isSubsequence (lower query).toList search.toList then
    some
      { id := d.id
        peer := d.responder
        host
        service := serviceName d.responder.port
        state := d.state
        originInferred := d.originInferred
        bytesUp := d.bytesO2r
        bytesDown := d.bytesR2o }
  else none

/-- The rows at `T`: of the connections listed there, going by the state and `last_at` they end
with, each as it is tracked after the items up to `T`. -/
def rowsAt (lower : String → String) (names : NameTable) (query : String) (items : List Item)
    (T : Nanos) : List ConnRow :=
  ((Tracker.track {} items).conns.filter (listedAt T)).filterMap fun c =>
    ((Tracker.track {} (upTo T items)).find c.id).bind (rowAt lower names query)

/-- What an identity finds depends on the lives alone. -/
lemma find_congr {t u : Tracker} (h : t.life = u.life) (id : ConnId) :
    (t.find id).map core = (u.find id).map core := by
  have hfind : ∀ v : Tracker, (v.find id).map core = v.life.conns.find? fun c => c.id = id := by
    intro v
    change _ = (v.conns.map core).find? _
    rw [List.find?_map]
    rfl
  rw [hfind, hfind, h]

/-- The rows may as well be made from what replay tracks. -/
lemma rowsAt_congr {cfg : EngineConfig}
    (hl : ∀ items, (Tracker.track cfg items).life = (Tracker.track {} items).life)
    (names : NameTable) (query : String) (items : List Item) (T : Nanos) :
    rowsAt lower names query items T =
      ((Tracker.track cfg items).conns.filter (listedAt T)).filterMap fun c =>
        ((Tracker.track cfg (upTo T items)).find c.id).bind (rowAt lower names query) := by
  have hrow : ∀ o : Option ConnTrack,
      o.bind (rowAt lower names query) = (o.map core).bind (rowAt lower names query) := by
    intro o
    cases o <;> rfl
  -- Only the lifecycle part of a connection is read.
  have hcore : ∀ (l : List ConnTrack) (G : ConnId → Option ConnRow),
      ((l.filter (listedAt T)).filterMap fun c => G c.id) =
        ((l.map core).filter (listedAt T)).filterMap fun c => G c.id := by
    intro l G
    rw [List.filter_map, List.filterMap_map]
    rfl
  have hconns : (Tracker.track cfg items).conns.map core =
      (Tracker.track {} items).conns.map core := congrArg Life.conns (hl items)
  unfold rowsAt
  refine (hcore _ fun id => ((Tracker.track {} (upTo T items)).find id).bind _).trans ?_
  refine .trans ?_ (hcore _ fun id => ((Tracker.track cfg (upTo T items)).find id).bind _).symm
  rw [hconns]
  refine List.filterMap_congr fun c _ => ?_
  rw [hrow, hrow ((Tracker.track cfg (upTo T items)).find c.id), find_congr (hl (upTo T items))]

/-- A connection is oriented as it was when the items up to `T` had been read. -/
lemma alike_upTo {cfg : EngineConfig} {items : List Item} (hw : cfg.retention.window = none)
    (hc : cfg.collectStateTimeline = true) (hord : items.Pairwise fun a b => a.ts.ns ≤ b.ts.ns)
    (ho : (Tracker.track cfg items).overflowed = false) {T : Nanos} :
    ∀ c ∈ (Tracker.track cfg items).conns, c.openedAt.ns ≤ T.ns →
      ∀ d, (Tracker.track cfg (upTo T items)).find c.id = some d → Alike c.view d.view := by
  induction items using List.reverseRecOn with
  | nil => simp [Tracker.new]
  | append_singleton p x ih =>
      intro c hmem hopened d hd
      by_cases hx : x.ts.ns ≤ T.ns
      · rw [upTo_snoc_of_le hord hx, find_of_mem (indexed_track _ _) hmem] at hd
        obtain rfl := Option.some.inj hd
        exact ⟨rfl, rfl⟩
      · have hx' : T.ns < x.ts.ns := by omega
        rw [upTo_snoc_of_lt hx'] at hd
        have hb := (counted_track cfg p).balance
        rw [Tracker.track_snoc] at ho hmem
        have ih' := ih (List.pairwise_append.mp hord).1
          (History.not_overflowed (indexed_track cfg p) hb hw x ho)
        cases History.told_of_mem hb hw hc ho c hmem with
        | same hc₀ => exact ih' c hc₀ hopened d hd
        | @more seg c₀ _ hc₀ hcore hs =>
            have hid := (eq_of_core ConnTrack.id hcore).trans (accounted_id c₀ seg)
            have hopen := (eq_of_core ConnTrack.openedAt hcore).trans (accounted_openedAt c₀ seg)
            obtain ⟨hr, hi⟩ := ih' c₀ hc₀ (hopen ▸ hopened) d (hid ▸ hd)
            exact ⟨((eq_of_core ConnTrack.responder hcore).trans (accounted_responder c₀ seg)).trans
                hr,
              ((eq_of_core ConnTrack.originInferred hcore).trans
                (originInferred_accounted c₀ seg)).trans hi⟩
        | @fresh seg _ hcore hs =>
            have hopen := (eq_of_core ConnTrack.openedAt hcore).trans (openedAt_freshTrack _ seg)
            rw [hopen] at hopened
            exact absurd hopened hx

/-- What an app shows of a connection is what is known of it at the cursor. -/
lemma row_resolved {cfg : EngineConfig} {items : List Item} (hw : cfg.retention.window = none)
    (hc : cfg.collectStateTimeline = true) (hord : items.Pairwise fun a b => a.ts.ns ≤ b.ts.ns)
    (ho : (Tracker.track cfg items).overflowed = false) {T : Nanos} {names : NameTable}
    {c : ConnTrack} (hmem : c ∈ (Tracker.track cfg items).conns) (hlisted : listedAt T c = true)
    (hmeta : app.metas c.id = some (App.metaFor lower c.view names)) :
    ((resolved T c).bind fun a => app.row lower a (lower app.query)) =
      ((Tracker.track cfg (upTo T items)).find c.id).bind (rowAt lower names app.query) := by
  have hopened : c.openedAt.ns ≤ T.ns := by
    simp only [listedAt, Bool.and_eq_true, decide_eq_true_eq] at hlisted
    exact hlisted.1
  obtain ⟨d, a, hd, ha⟩ := asOf_eq_replay hw hc hord ho T c hmem hopened
  obtain ⟨hdmem, hid⟩ := find_some hd
  obtain ⟨hr, hi⟩ := alike_upTo hw hc hord ho c hmem hopened d hd
  have hpair : EndpointPair.new c.origin c.responder = EndpointPair.new d.origin d.responder := by
    rw [(sound_track cfg items c hmem).pair, (sound_track cfg _ d hdmem).pair, hid]
  have horigin : c.origin = d.origin :=
    origin_eq ((show c.responder = d.responder from hr) ▸ hpair)
  have hview : App.metaFor lower c.view names = App.metaFor lower d.view names := by
    unfold App.metaFor App.searchPrefix
    rw [hr, hi, show c.view.origin = d.view.origin from horigin]
  rw [resolved, sortByTime_eq_self (Kept.inTime_track hord c hmem).states.1, ha, hd,
    Option.map_some, Option.bind_some, Option.bind_some]
  unfold App.row
  rw [hmeta, hview, ← hid]
  rfl

/-- Keys and ticks keep an app safe. -/
lemma safe_run (hsafe : app.Safe) {events : List AppEvent} (he : ∀ e ∈ events, e.brings = false) :
    (run (App.handle lower) app events).Safe := by
  refine inv_of_steps (P := App.Safe) (G := fun _ e => e.brings = false) hsafe
    (fun a e ha he => ?_) fun p e hp => he e (hp.subset (by simp))
  cases e with
  | key key => exact ha.key key
  | tick dt => exact ha.tick dt
  | retarget timeline horizon now status => simp [AppEvent.brings] at he
  | name obs => simp [AppEvent.brings] at he

/-- What is inserted for a replayed connection. -/
lemma metas_replayed {cfg : EngineConfig} {items : List Item} {names : NameTable} {c : ConnTrack}
    (hc : c ∈ (Tracker.track cfg items).conns) :
    App.insertMetas lower names (fun _ => none)
        (Timeline.withSeq ((Tracker.track cfg items).conns.map ConnTrack.connSeries)).connections
        c.id = some (App.metaFor lower c.view names) := by
  refine App.insertMetas_of_mem ?_ (c := c.view) ?_
  · rw [connections_withSeq, List.map_map]
    exact nodup_ids (indexed_track _ _)
  · rw [connections_withSeq]
    exact List.mem_map_of_mem hc

/-- **Time travel.** On a capture in time order, whatever keys are pressed and however time
passes, the rows a replay shows are these: for each connection opened by the cursor, unless it
ends closed or reset and before the cursor, what a tracker knows of it that has read the capture
up to the cursor and no further, if the query finds it. -/
theorem time_travel (h : runReplay lib path file lower true maxSamples = .ok app)
    {parse : ReplayParse} (hparse : parseFile lib path file = .ok parse)
    (hord : parse.items.Pairwise fun a b => a.ts.ns ≤ b.ts.ns)
    {events : List AppEvent} (he : ∀ e ∈ events, e.brings = false) :
    let shown := run (App.handle lower) app events
    (shown.visible lower).Perm
      (rowsAt lower (parse.names.foldl NameTable.observe {}) shown.query parse.items
        shown.transport.cursor) := by
  intro shown
  obtain ⟨parse', hparse', -, -, timeline, title, htl, happ⟩ := built h
  obtain rfl : parse' = parse := Except.ok.inj (hparse'.symm.trans hparse)
  have hgiven : shown.given = app.given := given_of_not_brings app he
  have hsafe : shown.Safe := by
    refine safe_run ?_ he
    rw [happ]
    exact App.safe_opening lower (o := .replay timeline _ title) ⟨_, _, .inr htl⟩
  obtain ⟨ho, rfl⟩ := timeline_of_ok htl
  have htimeline : shown.timeline = Timeline.withSeq _ := (congrArg Given.timeline hgiven).trans
    (congrArg App.timeline happ)
  have hdomain : shown.transport.finish = shown.timeline.finish := by
    rw [htimeline]
    have hbounds := (congrArg Given.domain hgiven).trans
      (congrArg (fun a => a.transport.bounds) happ)
    exact congrArg Prod.snd hbounds
  have hmetas : ∀ c ∈ (Tracker.track (replayEngineConfig maxSamples) parse'.items).conns,
      shown.metas c.id =
        some (App.metaFor lower c.view (parse'.names.foldl NameTable.observe {})) := by
    intro c hc
    have hm := (congrArg Given.metas hgiven).trans (congrArg App.metas happ)
    change shown.metas = _ at hm
    rw [hm]
    exact metas_replayed hc
  have hcursor : shown.transport.cursor.ns ≤ shown.timeline.finish.ns :=
    hdomain ▸ hsafe.within.le_finish
  unfold App.visible
  refine (List.perm_insertionSort _ _).trans (.of_eq ?_)
  rw [htimeline] at hcursor ⊢
  rw [rowsAt_congr (life_replayConfig maxSamples), resolveAt_replayed,
    activeTrack_eq_listedAt hcursor, List.filterMap_filterMap]
  refine List.filterMap_congr fun c hc => ?_
  obtain ⟨hmem, hlisted⟩ := List.mem_filter.mp hc
  exact row_resolved rfl rfl hord ho hmem hlisted (hmetas c hmem)

lemma parse_twoPacketFile :
    ∃ parse, parseFile headerSlicer "a.pcapng" twoPacketFile = .ok parse ∧
      parse.items.Pairwise fun a b => a.ts.ns ≤ b.ts.ns := by
  have hok : (parseFile headerSlicer "a.pcapng" twoPacketFile).toOption.any fun p =>
      decide (p.items.Pairwise fun a b => a.ts.ns ≤ b.ts.ns) := by decide +kernel
  cases h : parseFile headerSlicer "a.pcapng" twoPacketFile with
  | error e =>
      rw [h] at hok
      simp [Except.toOption] at hok
  | ok parse =>
      rw [h] at hok
      exact ⟨parse, rfl, by simpa [Except.toOption] using hok⟩

theorem time_travel_twoPackets :
    ∃ app parse,
      runReplay headerSlicer "a.pcapng" twoPacketFile String.toLower true 100 = .ok app ∧
      parseFile headerSlicer "a.pcapng" twoPacketFile = .ok parse ∧
      let shown := run (App.handle String.toLower) app stepThenTick
      (shown.visible String.toLower).Perm
        (rowsAt String.toLower (parse.names.foldl NameTable.observe {}) shown.query parse.items
          shown.transport.cursor) := by
  obtain ⟨app, happ⟩ := replay_twoPacketFile
  obtain ⟨parse, hparse, hord⟩ := parse_twoPacketFile
  exact ⟨app, parse, happ, hparse,
    time_travel happ hparse hord (by simp [stepThenTick, AppEvent.brings])⟩

end Commands

end TcpVisr
