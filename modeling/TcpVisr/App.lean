import TcpVisr.Names
import TcpVisr.Timeline
import TcpVisr.Transport

/-!
The interactive state of the master list, and the keys that change it.

The rows, their state and bytes, the sort, the filter and the selection are all functions of
a timeline and the transport's cursor. `lower` stands for `str::to_lowercase`, the Unicode
case folding of the standard library; nothing here depends on what it folds.
-/

namespace TcpVisr

/-- Well-known port labels; an unknown port has none. -/
def serviceName (port : BitVec 16) : Option String :=
  match port.toNat with
  | 20 | 21 => some "ftp"
  | 22 => some "ssh"
  | 23 => some "telnet"
  | 25 => some "smtp"
  | 53 => some "domain"
  | 67 | 68 => some "dhcp"
  | 80 => some "http"
  | 110 => some "pop3"
  | 123 => some "ntp"
  | 143 => some "imap"
  | 179 => some "bgp"
  | 389 => some "ldap"
  | 443 => some "https"
  | 445 => some "microsoft-ds"
  | 465 => some "smtps"
  | 587 => some "submission"
  | 631 => some "ipp"
  | 993 => some "imaps"
  | 995 => some "pop3s"
  | 3306 => some "mysql"
  | 3389 => some "rdp"
  | 5432 => some "postgresql"
  | 6379 => some "redis"
  | 8080 => some "http-alt"
  | 8443 => some "https-alt"
  | _ => none

/-- `format!("{:?}", state)`. -/
def ConnState.debug : ConnState → String
  | .synSent => "SynSent"
  | .synReceived => "SynReceived"
  | .established => "Established"
  | .finWait => "FinWait"
  | .closed => "Closed"
  | .reset => "Reset"

/-- Whether the characters of `needle` appear in `haystack` in order. -/
def isSubsequence : List Char → List Char → Bool
  | [], _ => true
  | _ :: _, [] => false
  | n :: ns, h :: hs => if h = n then isSubsequence ns hs else isSubsequence (n :: ns) hs

/-- The detail graph shown when the pane is open. -/
inductive DetailView
  | timeSequence | inFlight | rtt | throughput
  deriving DecidableEq

/-- One master-list row: a connection as of the cursor time. -/
structure ConnRow where
  id : ConnId
  peer : Endpoint
  host : Option HostName
  service : Option String
  state : ConnState
  originInferred : Bool
  bytesUp : ℕ
  bytesDown : ℕ
  deriving DecidableEq

/-- What a row needs that does not depend on the cursor, with the lowercased search prefix. -/
structure ConnMeta where
  peer : Endpoint
  host : Option HostName
  service : Option String
  originInferred : Bool
  searchPrefix : String
  deriving DecidableEq

inductive SortField
  | peer | state | bytesUp | bytesDown
  deriving DecidableEq

inductive SortDir
  | asc | desc
  deriving DecidableEq

/-- The default direction of a field. -/
def naturalDir : SortField → SortDir
  | .peer | .state => .asc
  | .bytesUp | .bytesDown => .desc

inductive Mode
  | nav | filter
  deriving DecidableEq

/-- Direction of a one-row selection move. -/
inductive Step
  | up | down
  deriving DecidableEq

/-- Keep running or quit. -/
inductive Outcome
  | continue | quit
  deriving DecidableEq

/-- Live-capture status for the header. -/
structure LiveStatus where
  dropped : ℕ := 0
  approximate : Bool := false
  skipped : ℕ := 0
  deriving DecidableEq

/-- The selected connection projected for the detail pane. -/
structure FocusConn where
  origin : Endpoint
  responder : Endpoint
  xSpan : Nanos × Nanos
  focusDir : SampleDir
  series : List SeqSample
  inflight : List InFlightSample
  rtt : List RttSample
  throughput : List ThroughputSample
  responderHost : Option HostName
  deriving DecidableEq

/-- The interactive state. `metas` is a hash map. -/
structure App where
  timeline : Timeline
  transport : Transport
  metas : ConnId → Option ConnMeta
  sortField : SortField := .peer
  sortDir : SortDir := .asc
  mode : Mode := .nav
  query : String := ""
  selected : Option ConnId := none
  title : String
  detailOpen : Bool := false
  detailView : DetailView := .timeSequence
  /-- Live capture, as opposed to replaying a file. -/
  isLive : Bool := false
  /-- Live: the cursor follows "now" instead of being frozen. -/
  follow : Bool := false
  liveStatus : LiveStatus := {}
  names : NameTable := {}

/-- The order of connection pairs: by low endpoint, then by high. -/
def EndpointPair.cmp (a b : EndpointPair) : Ordering :=
  (compare a.low.key b.low.key).then (compare a.high.key b.high.key)

namespace App

section Metas

variable (lower : String → String)

/-- The searchable text of a connection that does not depend on the cursor. -/
def searchPrefix (c : Connection) (host : Option HostName) : String :=
  let hostStr := (host.map fun h => String.ofList h.text).getD ""
  lower (c.origin.display ++ " " ++ c.responder.display ++ " " ++ hostStr ++ " " ++
    (serviceName c.responder.port).getD "")

/-- The time-invariant projection of one connection. -/
def metaFor (c : Connection) (names : NameTable) : ConnMeta :=
  let host := names.resolve c.responder.ip
  { peer := c.responder
    host
    service := serviceName c.responder.port
    originInferred := c.originInferred
    searchPrefix := searchPrefix lower c host }

/-- `for c in conns { metas.insert(c.id, meta_for(c, names)) }`. -/
def insertMetas (names : NameTable) (metas : ConnId → Option ConnMeta)
    (conns : List Connection) : ConnId → Option ConnMeta :=
  conns.foldl (fun m c => Function.update m c.id (some (metaFor lower c names))) metas

end Metas

/-! ### The rows -/

/-- The display order: the sort field in its direction, ties by ascending `ConnId`. -/
def order (app : App) (a b : ConnRow) : Ordering :=
  let base := match app.sortField with
    | .peer => compare a.peer.key b.peer.key
    | .state => compare a.state.rank b.state.rank
    | .bytesUp => compare a.bytesUp b.bytesUp
    | .bytesDown => compare a.bytesDown b.bytesDown
  let base := if app.sortDir = .desc then base.swap else base
  (base.then (a.id.pair.cmp b.id.pair)).then (compare a.id.inst b.id.inst)

section Rows

variable (lower : String → String)

/-- One resolved connection as a row, or `none` if it fails the filter. -/
def row (app : App) (a : AsOf) (q : String) : Option ConnRow :=
  match app.metas a.id with
  | none => none
  | some m =>
    let search := m.searchPrefix ++ " " ++ lower a.state.debug
    if isSubsequence q.toList search.toList then
      some
        { id := a.id
          peer := m.peer
          host := m.host
          service := m.service
          state := a.state
          originInferred := m.originInferred
          bytesUp := a.bytesO2r
          bytesDown := a.bytesR2o }
    else none

/-- The filtered and sorted rows active at the cursor, in display order. -/
def visible (app : App) : List ConnRow :=
  let q := lower app.query
  ((app.timeline.resolveAt app.transport.cursor).filterMap fun a => app.row lower a q).insertionSort
    fun x y => app.order x y ≠ .gt

/-- Keeps the selection while it is visible, else selects the first visible row. -/
def reconcileSelection (app : App) : App :=
  let visible := app.visible lower
  let stillVisible := app.selected.any fun id => visible.any fun r => r.id = id
  if stillVisible then app else { app with selected := visible.head?.map ConnRow.id }

/-! ### Construction -/

/-- The app over a timeline, each peer's host resolved once. -/
def newWithNames (timeline : Timeline) (names : NameTable) (title : String) : App :=
  let (start, finish) := timeline.bounds
  let app : App :=
    { timeline
      transport := Transport.new start finish
      metas := insertMetas lower names (fun _ => none) timeline.connections
      title
      names }
  { app with selected := (app.visible lower).head?.map ConnRow.id }

/-- An empty app following "now", to be fed snapshots. -/
def newLive (names : NameTable) (title : String) : App :=
  { newWithNames lower (Timeline.withSeq []) names title with isLive := true, follow := true }

/-! ### Operations -/

/-- Swaps in a fresh snapshot over the domain `[horizon, now]`. -/
def retarget (app : App) (timeline : Timeline) (horizon now : Nanos) (status : LiveStatus) :
    App :=
  let present := timeline.connections.map Connection.id
  let retained := fun id => if id ∈ present then app.metas id else none
  let fresh := timeline.connections.filter fun c => (retained c.id).isNone
  let transport := app.transport.setDomain horizon now
  let app :=
    { app with
      metas := insertMetas lower app.names retained fresh
      timeline
      liveStatus := status
      transport := if app.follow then transport.setCursor now else transport }
  app.reconcileSelection lower

/-- Records a name for connections that appear later. -/
def observeName (app : App) (obs : NameObservation) : App :=
  { app with names := app.names.observe obs }

/-- Opens the detail pane, if a row is selected. -/
def openDetail (app : App) : App :=
  if app.selected.isSome then { app with detailOpen := true } else app

def closeDetail (app : App) : App := { app with detailOpen := false }

def cycleDetailView (app : App) : App :=
  { app with
    detailView := match app.detailView with
      | .timeSequence => .inFlight
      | .inFlight => .rtt
      | .rtt => .throughput
      | .throughput => .timeSequence }

/-- The selected connection for the detail pane, its focus on the direction with more bytes. -/
def focus (app : App) : Option FocusConn := do
  let id ← app.selected
  let c ← app.timeline.connections.find? fun c => c.id = id
  let xSpan ← app.timeline.xSpan id
  let e := app.timeline.find id
  return {
    origin := c.origin
    responder := c.responder
    xSpan
    focusDir := if c.bytesR2o ≤ c.bytesO2r then .originToResponder else .responderToOrigin
    series := (e.map Entry.seq).getD []
    inflight := (e.map Entry.inflight).getD []
    rtt := (e.map Entry.rtt).getD []
    throughput := (e.map Entry.throughput).getD []
    responderHost := (app.metas id).bind ConnMeta.host }

def togglePlay (app : App) : App :=
  reconcileSelection lower { app with transport := app.transport.togglePlay }

def seek (app : App) (forward : Bool) : App :=
  reconcileSelection lower { app with transport := app.transport.seek forward }

def faster (app : App) : App := { app with transport := app.transport.faster }

def slower (app : App) : App := { app with transport := app.transport.slower }

/-- Moves the cursor to the next event time, if there is one. -/
def stepForward (app : App) : App :=
  match app.timeline.nextEvent app.transport.cursor with
  | some t => reconcileSelection lower { app with transport := app.transport.setCursor t }
  | none => app

/-- Moves the cursor to the previous event time, if there is one. -/
def stepBack (app : App) : App :=
  match app.timeline.prevEvent app.transport.cursor with
  | some t => reconcileSelection lower { app with transport := app.transport.setCursor t }
  | none => app

/-- Advances playback by a wall-clock delta. -/
def tick (app : App) (dt : Nanos) : App :=
  let before := app.transport.cursor
  let app := { app with transport := app.transport.tick dt }
  if app.transport.cursor ≠ before then app.reconcileSelection lower else app

def cycleSort (app : App) : App :=
  let field := match app.sortField with
    | .peer => .state
    | .state => .bytesUp
    | .bytesUp => .bytesDown
    | .bytesDown => .peer
  { app with sortField := field, sortDir := naturalDir field }

def toggleDir (app : App) : App :=
  { app with sortDir := match app.sortDir with
    | .asc => .desc
    | .desc => .asc }

def enterFilter (app : App) : App := { app with mode := .filter }

def pushFilter (app : App) (c : Char) : App :=
  reconcileSelection lower { app with query := app.query.push c }

def popFilter (app : App) : App :=
  reconcileSelection lower { app with query := String.ofList app.query.toList.dropLast }

def confirmFilter (app : App) : App := { app with mode := .nav }

def cancelFilter (app : App) : App :=
  reconcileSelection lower { app with query := "", mode := .nav }

/-- Moves the selection one row in display order, clamped. -/
def moveBy (app : App) (step : Step) : App :=
  let visible := app.visible lower
  if visible.length = 0 then { app with selected := none }
  else
    let last := visible.length - 1
    let cur := (app.selected.bind fun id => visible.findIdx? fun r => r.id = id).getD 0
    let next := match step with
      | .up => cur - 1
      | .down => min (cur + 1) last
    { app with selected := visible[next]?.map ConnRow.id }

def moveUp (app : App) : App := app.moveBy lower .up

def moveDown (app : App) : App := app.moveBy lower .down

/-- Live: toggles follow and freeze. Following again snaps the cursor to "now". -/
def toggleFollow (app : App) : App :=
  let app := { app with follow := !app.follow }
  if app.follow then
    { app with transport := app.transport.setCursor app.transport.bounds.2 }
  else app

/-- Live only: stops following on a manual cursor move. -/
def freezeIfLive (app : App) : App := if app.isLive then { app with follow := false } else app

end Rows

end App

/-! ### Keys -/

inductive KeyCode
  | char (c : Char)
  | up | down | left | right | enter | esc | tab | backspace
  | other
  deriving DecidableEq

structure KeyEvent where
  code : KeyCode
  /-- `modifiers.contains(CONTROL)`. -/
  control : Bool := false
  deriving DecidableEq

section Keys

variable (lower : String → String)

def handleNav (app : App) (code : KeyCode) : App × Outcome :=
  match code with
  | .char 'q' => (app, .quit)
  | .char 's' => (app.cycleSort, .continue)
  | .char 'S' => (app.toggleDir, .continue)
  | .char '/' => (app.enterFilter, .continue)
  | .char 'j' | .down => (app.moveDown lower, .continue)
  | .char 'k' | .up => (app.moveUp lower, .continue)
  | .char ' ' => (if app.isLive then app.toggleFollow else app.togglePlay lower, .continue)
  | .left => (app.freezeIfLive.seek lower false, .continue)
  | .right => (app.freezeIfLive.seek lower true, .continue)
  | .char '+' | .char '=' => (app.faster, .continue)
  | .char '-' | .char '_' => (app.slower, .continue)
  | .char '.' => (app.freezeIfLive.stepForward lower, .continue)
  | .char ',' => (app.freezeIfLive.stepBack lower, .continue)
  | .enter => (app.openDetail, .continue)
  | .esc => (app.closeDetail, .continue)
  | .tab => (app.cycleDetailView, .continue)
  | _ => (app, .continue)

def handleFilter (app : App) (code : KeyCode) : App :=
  match code with
  | .enter => app.confirmFilter
  | .esc => app.cancelFilter lower
  | .backspace => app.popFilter lower
  | .char c => app.pushFilter lower c
  | _ => app

/-- Maps a key press to a state change, and says whether to keep running. -/
def handleKey (app : App) (key : KeyEvent) : App × Outcome :=
  if key.control && key.code = .char 'c' then (app, .quit)
  else match app.mode with
    | .nav => handleNav lower app key.code
    | .filter => (handleFilter lower app key.code, .continue)

/-- What drives the app: a key press, the passing of wall-clock time, a fresh snapshot with
its domain, or an observed name. -/
inductive AppEvent
  | key (key : KeyEvent)
  | tick (dt : Nanos)
  | retarget (timeline : Timeline) (horizon now : Nanos) (status : LiveStatus)
  | name (obs : NameObservation)

/-- Apply one event. -/
def App.handle (app : App) : AppEvent → App
  | .key key => (handleKey lower app key).1
  | .tick dt => app.tick lower dt
  | .retarget timeline horizon now status => app.retarget lower timeline horizon now status
  | .name obs => app.observeName obs

end Keys

end TcpVisr
