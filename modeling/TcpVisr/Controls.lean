import TcpVisr.Cursor

/-!
What the keys decide, and what they leave alone.

The mode, the query, the sort, the detail view, the speed and whether the app follows "now"
are a machine of their own that the keys drive: nothing captured, no frame and no passing of
time has a say in them. What is shown, in turn, is never changed by a key.
-/

namespace TcpVisr

open Lib.Runs

/-- The part of an app that keys alone change. -/
structure Controls where
  sortField : SortField := .peer
  sortDir : SortDir := .asc
  mode : Mode := .nav
  query : String := ""
  detailView : DetailView := .timeSequence
  speedIdx : Fin 6 := defaultSpeedIdx
  isLive : Bool := false
  follow : Bool := false
  deriving DecidableEq

/-- The part of an app that keys never change. -/
structure Given where
  timeline : Timeline
  metas : ConnId → Option ConnMeta
  title : String
  liveStatus : LiveStatus
  names : NameTable
  domain : Nanos × Nanos

namespace Controls

/-- The next sort field, in its own direction. -/
def cycleSort (c : Controls) : Controls :=
  let field := match c.sortField with
    | .peer => .state
    | .state => .bytesUp
    | .bytesUp => .bytesDown
    | .bytesDown => .peer
  { c with sortField := field, sortDir := naturalDir field }

def toggleDir (c : Controls) : Controls :=
  { c with sortDir := match c.sortDir with
    | .asc => .desc
    | .desc => .asc }

def cycleDetailView (c : Controls) : Controls :=
  { c with
    detailView := match c.detailView with
      | .timeSequence => .inFlight
      | .inFlight => .rtt
      | .rtt => .throughput
      | .throughput => .timeSequence }

/-- Moving the cursor by hand stops a live app following. -/
def freeze (c : Controls) : Controls := if c.isLive then { c with follow := false } else c

def nav (c : Controls) : KeyCode → Controls
  | .char 's' => c.cycleSort
  | .char 'S' => c.toggleDir
  | .char '/' => { c with mode := .filter }
  | .char ' ' => if c.isLive then { c with follow := !c.follow } else c
  | .left | .right | .char '.' | .char ',' => c.freeze
  | .char '+' | .char '=' => { c with speedIdx := ⟨min (c.speedIdx + 1) 5, by omega⟩ }
  | .char '-' | .char '_' => { c with speedIdx := ⟨c.speedIdx - 1, by omega⟩ }
  | .tab => c.cycleDetailView
  | _ => c

def filter (c : Controls) : KeyCode → Controls
  | .enter => { c with mode := .nav }
  | .esc => { c with query := "", mode := .nav }
  | .backspace => { c with query := String.ofList c.query.toList.dropLast }
  | .char ch => { c with query := c.query.push ch }
  | _ => c

/-- Whether a key leaves the event loop. -/
def quits (c : Controls) (key : KeyEvent) : Bool :=
  (key.control && key.code = .char 'c') || (c.mode = .nav && key.code = .char 'q')

/-- The machine of the keys. -/
def press (c : Controls) (key : KeyEvent) : Controls :=
  if key.control && key.code = .char 'c' then c
  else match c.mode with
    | .nav => c.nav key.code
    | .filter => c.filter key.code

end Controls

/-- What a frame brings, and a name observed. -/
def Given.bring (lower : String → String) (g : Given) : AppEvent → Given
  | .retarget timeline horizon now status =>
    let present := timeline.connections.map Connection.id
    let retained := fun id => if id ∈ present then g.metas id else none
    let fresh := timeline.connections.filter fun c => (retained c.id).isNone
    { g with
      timeline
      metas := App.insertMetas lower g.names retained fresh
      liveStatus := status
      domain := (horizon, now) }
  | .name obs => { g with names := g.names.observe obs }
  | .key _ | .tick _ => g

namespace App

def controls (app : App) : Controls :=
  ⟨app.sortField, app.sortDir, app.mode, app.query, app.detailView, app.transport.speedIdx,
    app.isLive, app.follow⟩

def given (app : App) : Given :=
  ⟨app.timeline, app.metas, app.title, app.liveStatus, app.names, app.transport.bounds⟩

variable {lower : String → String}

/-! ### The selection is neither -/

@[simp] lemma controls_reconcile (app : App) :
    (app.reconcileSelection lower).controls = app.controls := by
  unfold reconcileSelection
  dsimp only
  split <;> rfl

@[simp] lemma given_reconcile (app : App) : (app.reconcileSelection lower).given = app.given := by
  unfold reconcileSelection
  dsimp only
  split <;> rfl

@[simp] lemma controls_moveBy (app : App) (step : Step) :
    (app.moveBy lower step).controls = app.controls := by
  unfold moveBy
  dsimp only
  split <;> rfl

@[simp] lemma given_moveBy (app : App) (step : Step) :
    (app.moveBy lower step).given = app.given := by
  unfold moveBy
  dsimp only
  split <;> rfl

lemma controls_freeze (app : App) : app.freezeIfLive.controls = app.controls.freeze := by
  have hl : app.controls.isLive = app.isLive := rfl
  unfold freezeIfLive Controls.freeze
  rw [hl]
  split <;> rfl

lemma given_freeze (app : App) : app.freezeIfLive.given = app.given := by
  unfold freezeIfLive
  split <;> rfl

@[simp] lemma controls_seek (app : App) (forward : Bool) :
    (app.seek lower forward).controls = app.controls := controls_reconcile _

@[simp] lemma given_seek (app : App) (forward : Bool) :
    (app.seek lower forward).given = app.given := given_reconcile _

@[simp] lemma controls_stepForward (app : App) :
    (app.stepForward lower).controls = app.controls := by
  unfold stepForward
  split
  · exact controls_reconcile _
  · rfl

@[simp] lemma given_stepForward (app : App) : (app.stepForward lower).given = app.given := by
  unfold stepForward
  split
  · exact given_reconcile _
  · rfl

@[simp] lemma controls_stepBack (app : App) : (app.stepBack lower).controls = app.controls := by
  unfold stepBack
  split
  · exact controls_reconcile _
  · rfl

@[simp] lemma given_stepBack (app : App) : (app.stepBack lower).given = app.given := by
  unfold stepBack
  split
  · exact given_reconcile _
  · rfl

@[simp] lemma controls_openDetail (app : App) : app.openDetail.controls = app.controls := by
  unfold openDetail
  split <;> rfl

@[simp] lemma given_openDetail (app : App) : app.openDetail.given = app.given := by
  unfold openDetail
  split <;> rfl

lemma speedIdx_togglePlay (tr : Transport) : tr.togglePlay.speedIdx = tr.speedIdx := by
  unfold Transport.togglePlay
  dsimp only
  split_ifs <;> rfl

lemma speedIdx_tick (tr : Transport) (dt : Nanos) : (tr.tick dt).speedIdx = tr.speedIdx := by
  unfold Transport.tick
  dsimp only
  split_ifs <;> rfl

lemma bounds_togglePlay (tr : Transport) : tr.togglePlay.bounds = tr.bounds := by
  unfold Transport.togglePlay
  dsimp only
  split_ifs <;> rfl

lemma bounds_tick (tr : Transport) (dt : Nanos) : (tr.tick dt).bounds = tr.bounds := by
  unfold Transport.tick
  dsimp only
  split_ifs <;> rfl

@[simp] lemma controls_togglePlay (app : App) :
    (app.togglePlay lower).controls = app.controls := by
  refine (controls_reconcile _).trans ?_
  simp only [controls, speedIdx_togglePlay]

@[simp] lemma given_togglePlay (app : App) : (app.togglePlay lower).given = app.given := by
  refine (given_reconcile _).trans ?_
  simp only [given, bounds_togglePlay]

lemma controls_toggleFollow (app : App) :
    app.toggleFollow.controls = { app.controls with follow := !app.controls.follow } := by
  unfold toggleFollow
  dsimp only
  split <;> rfl

lemma given_toggleFollow (app : App) : app.toggleFollow.given = app.given := by
  unfold toggleFollow
  dsimp only
  split <;> rfl

/-! ### One event -/

lemma controls_space (app : App) :
    (if app.isLive then app.toggleFollow else app.togglePlay lower).controls =
      if app.controls.isLive then { app.controls with follow := !app.controls.follow }
      else app.controls := by
  have hl : app.controls.isLive = app.isLive := rfl
  rw [hl]
  split
  · exact controls_toggleFollow app
  · exact controls_togglePlay app

lemma controls_nav (app : App) (code : KeyCode) :
    (handleNav lower app code).1.controls = app.controls.nav code := by
  unfold handleNav
  split
  · rfl
  · rfl
  · rfl
  · rfl
  · exact controls_moveBy app .down
  · exact controls_moveBy app .down
  · exact controls_moveBy app .up
  · exact controls_moveBy app .up
  · exact controls_space app
  · exact (controls_seek _ _).trans (controls_freeze app)
  · exact (controls_seek _ _).trans (controls_freeze app)
  · rfl
  · rfl
  · rfl
  · rfl
  · exact (controls_stepForward _).trans (controls_freeze app)
  · exact (controls_stepBack _).trans (controls_freeze app)
  · exact controls_openDetail app
  · rfl
  · rfl
  · -- A key that nothing is bound to.
    unfold Controls.nav
    split <;> simp_all

lemma controls_filter (app : App) (code : KeyCode) :
    (handleFilter lower app code).controls = app.controls.filter code := by
  unfold handleFilter
  split
  · rfl
  · exact controls_reconcile _
  · exact controls_reconcile _
  · exact controls_reconcile _
  · unfold Controls.filter
    split <;> simp_all

/-- **A key press moves the machine of the keys**, and quits if that says so. -/
theorem controls_key (lower : String → String) (app : App) (key : KeyEvent) :
    (handleKey lower app key).1.controls = app.controls.press key ∧
      ((handleKey lower app key).2 = .quit ↔ app.controls.quits key = true) := by
  have hm : app.controls.mode = app.mode := rfl
  unfold handleKey Controls.press Controls.quits
  rw [hm]
  split
  · next hc => simp [hc]
  · next hc =>
      cases app.mode with
      | nav =>
          refine ⟨controls_nav app key.code, ?_⟩
          simp only [hc, decide_true, Bool.true_and, Bool.false_or]
          unfold handleNav
          split <;> simp_all
      | filter =>
          refine ⟨controls_filter app key.code, ?_⟩
          simp [hc]

lemma given_nav (app : App) (code : KeyCode) :
    (handleNav lower app code).1.given = app.given := by
  unfold handleNav
  split
  · rfl
  · rfl
  · rfl
  · rfl
  · exact given_moveBy app .down
  · exact given_moveBy app .down
  · exact given_moveBy app .up
  · exact given_moveBy app .up
  · split
    · exact given_toggleFollow app
    · exact given_togglePlay app
  · exact (given_seek _ _).trans (given_freeze app)
  · exact (given_seek _ _).trans (given_freeze app)
  · rfl
  · rfl
  · rfl
  · rfl
  · exact (given_stepForward _).trans (given_freeze app)
  · exact (given_stepBack _).trans (given_freeze app)
  · exact given_openDetail app
  · rfl
  · rfl
  · rfl

lemma given_filter (app : App) (code : KeyCode) :
    (handleFilter lower app code).given = app.given := by
  unfold handleFilter
  split
  · rfl
  · exact given_reconcile _
  · exact given_reconcile _
  · exact given_reconcile _
  · rfl

/-- No key changes what is shown. -/
theorem given_key (lower : String → String) (app : App) (key : KeyEvent) :
    (handleKey lower app key).1.given = app.given := by
  unfold handleKey
  split
  · rfl
  · split
    · exact given_nav app key.code
    · exact given_filter app key.code

lemma controls_tick (app : App) (dt : Nanos) : (app.tick lower dt).controls = app.controls := by
  have hmoved : controls { app with transport := app.transport.tick dt } = app.controls := by
    simp only [controls, speedIdx_tick]
  unfold App.tick
  dsimp only
  split
  · exact (controls_reconcile _).trans hmoved
  · exact hmoved

lemma controls_retarget (app : App) (timeline : Timeline) (horizon now : Nanos)
    (status : LiveStatus) :
    (app.retarget lower timeline horizon now status).controls = app.controls := by
  unfold retarget
  refine (controls_reconcile _).trans ?_
  dsimp only [controls]
  split <;> rfl

lemma given_tick (app : App) (dt : Nanos) : (app.tick lower dt).given = app.given := by
  have hmoved : given { app with transport := app.transport.tick dt } = app.given := by
    simp only [given, bounds_tick]
  unfold App.tick
  dsimp only
  split
  · exact (given_reconcile _).trans hmoved
  · exact hmoved

lemma given_retarget (lower : String → String) (app : App) (timeline : Timeline)
    (horizon now : Nanos) (status : LiveStatus) :
    (app.retarget lower timeline horizon now status).given =
      app.given.bring lower (.retarget timeline horizon now status) := by
  unfold retarget
  refine (given_reconcile _).trans ?_
  dsimp only [given]
  split <;> rfl

lemma given_handle (app : App) (e : AppEvent) :
    (app.handle lower e).given = app.given.bring lower e := by
  cases e with
  | key key => exact given_key lower app key
  | tick dt => exact given_tick app dt
  | retarget timeline horizon now status =>
      exact given_retarget lower app timeline horizon now status
  | name obs => rfl

end App

/-- The key of an event that is one. -/
def AppEvent.key? : AppEvent → Option KeyEvent
  | .key k => some k
  | _ => none

/-- Whether an event brings something from outside: a frame, or a name. -/
def AppEvent.brings : AppEvent → Bool
  | .retarget _ _ _ _ | .name _ => true
  | .key _ | .tick _ => false

namespace App

variable {lower : String → String}

lemma controls_handle (app : App) (e : AppEvent) :
    (app.handle lower e).controls =
      run Controls.press app.controls ([e].filterMap AppEvent.key?) := by
  cases e with
  | key key => exact (controls_key lower app key).1
  | tick dt => exact controls_tick app dt
  | retarget timeline horizon now status => exact controls_retarget app timeline horizon now status
  | name obs => rfl

lemma controls_run (lower : String → String) (app : App) (events : List AppEvent) :
    (run (App.handle lower) app events).controls =
      run Controls.press app.controls (events.filterMap AppEvent.key?) := by
  induction events using List.reverseRecOn with
  | nil => rfl
  | append_singleton p e ih =>
      rw [run_snoc, controls_handle, ih, List.filterMap_append, run_append]

lemma bring_of_not_brings (g : Given) {e : AppEvent} (h : e.brings = false) :
    g.bring lower e = g := by
  cases e with
  | key key => rfl
  | tick dt => rfl
  | retarget => simp [AppEvent.brings] at h
  | name obs => simp [AppEvent.brings] at h

lemma given_run (app : App) (events : List AppEvent) :
    (run (App.handle lower) app events).given =
      run (Given.bring lower) app.given (events.filter AppEvent.brings) := by
  induction events using List.reverseRecOn with
  | nil => rfl
  | append_singleton p e ih =>
      rw [run_snoc, given_handle, ih, List.filter_append]
      cases he : e.brings with
      | false => simp [he, bring_of_not_brings _ he]
      | true => simp [he]

end App

/-- **Keys steer and captures show, apart from each other.** After any events the controls are
those that the machine of the keys comes to on the keys alone, which also says what key would
quit; and the timeline, the cached rows, the names and the header are those that the frames
and the names bring by themselves. -/
theorem App.steered_apart (lower : String → String) (app : App) (events : List AppEvent) :
    (run (App.handle lower) app events).controls =
        run Controls.press app.controls (events.filterMap AppEvent.key?) ∧
      (run (App.handle lower) app events).given =
        run (Given.bring lower) app.given (events.filter AppEvent.brings) ∧
      ∀ key, (handleKey lower (run (App.handle lower) app events) key).2 = .quit ↔
        (run Controls.press app.controls (events.filterMap AppEvent.key?)).quits key = true :=
  ⟨controls_run lower app events, given_run app events,
    fun key => controls_run lower app events ▸ (controls_key lower _ key).2⟩

end TcpVisr
