import TcpVisr.Controls

/-!
Playback.

While a replay plays, and no key moves the cursor or pauses it, where the cursor stands is a
matter of arithmetic: each tick of the wall clock counts at the speed set by the keys before
it. Playback neither drifts nor overshoots, and pauses at the end and only there.
-/

namespace TcpVisr

open Lib.Runs

namespace Controls

/-- The keys that move the cursor, or play or pause, where they navigate. -/
def movers : List KeyCode := [.char ' ', .left, .right, .char '.', .char ',']

/-- Whether a key moves the cursor, or plays or pauses. -/
def moves (c : Controls) (key : KeyEvent) : Bool :=
  !(key.control && key.code = .char 'c') && c.mode = .nav && key.code ∈ movers

/-- What the ticks among some events come to at the speeds they find. -/
def played (c : Controls) : List AppEvent → ℕ
  | [] => 0
  | .tick dt :: events =>
    dt.ns * (ratios c.speedIdx).1 / (ratios c.speedIdx).2 + c.played events
  | .key key :: events => (c.press key).played events
  | _ :: events => c.played events

/-- What one event adds. -/
def adds (c : Controls) : AppEvent → ℕ
  | .tick dt => dt.ns * (ratios c.speedIdx).1 / (ratios c.speedIdx).2
  | _ => 0

lemma played_snoc (c : Controls) (events : List AppEvent) (e : AppEvent) :
    c.played (events ++ [e]) =
      c.played events + (run press c (events.filterMap AppEvent.key?)).adds e := by
  induction events generalizing c with
  | nil => cases e <;> simp [played, adds, AppEvent.key?]
  | cons f events ih =>
      cases f with
      | tick dt => simp only [List.cons_append, played, ih, Nat.add_assoc]; rfl
      | key key => simp only [List.cons_append, played, ih]; rfl
      | retarget => simp only [List.cons_append, played, ih]; rfl
      | name => simp only [List.cons_append, played, ih]; rfl

end Controls

namespace App

variable {lower : String → String} {app : App}

/-- An event that leaves playback alone. -/
def LetsPlay (app : App) : AppEvent → Prop
  | .key key => app.controls.moves key = false
  | .tick _ | .name _ => True
  | .retarget .. => False

instance (app : App) : ∀ e, Decidable (app.LetsPlay e)
  | .key key => inferInstanceAs (Decidable (app.controls.moves key = false))
  | .tick _ | .name _ => isTrue trivial
  | .retarget .. => isFalse id

lemma transport_reconcile (app : App) :
    (app.reconcileSelection lower).transport = app.transport := (view_reconcile app).transport

lemma transport_moveBy (app : App) (step : Step) :
    (app.moveBy lower step).transport = app.transport := (view_moveBy app step).transport

lemma transport_openDetail (app : App) : app.openDetail.transport = app.transport := by
  unfold openDetail
  split <;> rfl

lemma transport_nav {code : KeyCode} (h : code ∉ Controls.movers) :
    ∃ i, (handleNav lower app code).1.transport = { app.transport with speedIdx := i } := by
  unfold handleNav
  split
  · exact ⟨_, rfl⟩
  · exact ⟨_, rfl⟩
  · exact ⟨_, rfl⟩
  · exact ⟨_, rfl⟩
  · exact ⟨_, transport_moveBy app .down⟩
  · exact ⟨_, transport_moveBy app .down⟩
  · exact ⟨_, transport_moveBy app .up⟩
  · exact ⟨_, transport_moveBy app .up⟩
  · exact absurd (by decide) h
  · exact absurd (by decide) h
  · exact absurd (by decide) h
  · exact ⟨_, rfl⟩
  · exact ⟨_, rfl⟩
  · exact ⟨_, rfl⟩
  · exact ⟨_, rfl⟩
  · exact absurd (by decide) h
  · exact absurd (by decide) h
  · exact ⟨_, transport_openDetail app⟩
  · exact ⟨_, rfl⟩
  · exact ⟨_, rfl⟩
  · exact ⟨_, rfl⟩

lemma transport_filter (app : App) (code : KeyCode) :
    (handleFilter lower app code).transport = app.transport := by
  unfold handleFilter
  split
  · rfl
  · exact transport_reconcile _
  · exact transport_reconcile _
  · exact transport_reconcile _
  · rfl

/-- Such a key changes the speed at most. -/
lemma transport_key {key : KeyEvent} (h : app.controls.moves key = false) :
    (handleKey lower app key).1.transport =
      { app.transport with speedIdx := (app.controls.press key).speedIdx } := by
  have hspeed : (handleKey lower app key).1.transport.speedIdx =
      (app.controls.press key).speedIdx :=
    congrArg Controls.speedIdx (controls_key lower app key).1
  have hsame : ∃ i, (handleKey lower app key).1.transport =
      { app.transport with speedIdx := i } := by
    unfold handleKey
    split
    · exact ⟨_, rfl⟩
    · next hc =>
        cases hm : app.mode with
        | nav =>
            have hcode : key.code ∉ Controls.movers := by
              have hmode : app.controls.mode = .nav := hm
              simpa [Controls.moves, hc, hmode] using h
            exact transport_nav hcode
        | filter => exact ⟨_, transport_filter app key.code⟩
  obtain ⟨i, hi⟩ := hsame
  rw [hi] at hspeed ⊢
  rw [← hspeed]

/-! ### The law -/

/-- Playback that started at `from` and has come `n` further. -/
structure Played (tr : Transport) (n : ℕ) (app : App) : Prop where
  cursor : app.transport.cursor.ns = min tr.finish.ns (tr.cursor.ns + n)
  playing : app.transport.playing = true ↔ tr.cursor.ns + n < tr.finish.ns
  finish : app.transport.finish = tr.finish

lemma Transport.advanced_ns (tr : Transport) (dt : Nanos) : (tr.advanced dt).ns =
    min tr.finish.ns
      (tr.cursor.ns + dt.ns * (ratios tr.speedIdx).1 / (ratios tr.speedIdx).2) := by
  have hf := tr.finish.le_max
  generalize hq : dt.ns * (ratios tr.speedIdx).1 / (ratios tr.speedIdx).2 = q
  have hns : (Nanos.sat (tr.cursor.ns + (Nanos.sat q).ns)).ns =
      min (tr.cursor.ns + min q u64Max) u64Max := rfl
  simp only [Transport.advanced, hq]
  split
  · next hle =>
      rw [hns] at hle ⊢
      omega
  · next hlt =>
      rw [hns] at hlt
      omega

lemma Played.handle {tr : Transport} {n : ℕ} (h : Played tr n app) {e : AppEvent}
    (he : app.LetsPlay e) : Played tr (n + app.controls.adds e) (app.handle lower e) := by
  obtain ⟨hcur, hplay, hfin⟩ := h
  cases e with
  | key key =>
      have htr : (handleKey lower app key).1.transport =
          { app.transport with speedIdx := (app.controls.press key).speedIdx } := transport_key he
      change Played tr n (handleKey lower app key).1
      constructor <;> rw [htr] <;> assumption
  | name obs => exact ⟨hcur, hplay, hfin⟩
  | retarget => exact absurd he id
  | tick dt =>
      have htr : (app.handle lower (.tick dt)).transport = app.transport.tick dt :=
        tick_transport app dt
      have hadds : app.controls.adds (.tick dt) = dt.ns * (ratios app.transport.speedIdx).1 /
          (ratios app.transport.speedIdx).2 := rfl
      have hadv := Transport.advanced_ns app.transport dt
      rw [← hadds, hfin, hcur] at hadv
      generalize app.controls.adds (.tick dt) = q at hadv ⊢
      cases hp : app.transport.playing with
      | false =>
          have hend : ¬ tr.cursor.ns + n < tr.finish.ns := fun hlt => by
            simp [hplay.mpr hlt] at hp
          rw [Transport.tick_paused hp] at htr
          constructor <;> rw [htr]
          · rw [hcur]
            omega
          · simp only [hp, Bool.false_eq_true, false_iff]
            omega
          · exact hfin
      | true =>
          have hlt := hplay.mp hp
          rw [Transport.tick_playing hp] at htr
          constructor <;> rw [htr]
          · rw [hadv]
            omega
          · simp only [Bool.not_eq_true', decide_eq_false_iff_not, hadv, hfin]
            omega
          · exact hfin

end App

/-- **Playback.** From a playing cursor before the end, and as long as no key moves the cursor
or pauses it, the cursor is as far on as the ticks come to, each at the speed that the keys
before it have set, and no further than the end; and it plays exactly until it is there. -/
theorem App.plays_on (lower : String → String) {app : App} (hp : app.transport.playing = true)
    (hc : app.transport.cursor.ns < app.transport.finish.ns) {events : List AppEvent}
    (h : Steps (App.handle lower) app App.LetsPlay events) :
    let shown := run (App.handle lower) app events
    shown.transport.cursor.ns = min app.transport.finish.ns
        (app.transport.cursor.ns + app.controls.played events) ∧
      (shown.transport.playing = true ↔
        app.transport.cursor.ns + app.controls.played events < app.transport.finish.ns) := by
  have key : Played app.transport (app.controls.played events)
      (run (App.handle lower) app events) := by
    induction events using List.reverseRecOn with
    | nil =>
        refine ⟨?_, by simp [hp, hc, Controls.played], rfl⟩
        simp only [run_nil, Controls.played]
        omega
    | append_singleton p e ih =>
        obtain ⟨hsteps, he⟩ := steps_snoc.mp h
        rw [run_snoc, Controls.played_snoc, ← App.controls_run lower]
        exact (ih hsteps).handle he
  exact ⟨key.cursor, key.playing⟩

namespace App

/-- A replay over `[0, 20]`, just started. -/
def started : App := (newWithNames String.toLower twoConns {} "").togglePlay String.toLower

/-- Three nanoseconds at normal speed, and four at the next. -/
def sevenNanos : List AppEvent :=
  [.tick (Nanos.sat 3), .key ⟨.char '+', false⟩, .tick (Nanos.sat 4)]

end App

theorem App.plays_on_started :
    (run (App.handle String.toLower) App.started App.sevenNanos).transport.cursor.ns = 11 := by
  have hsteps : Steps (App.handle String.toLower) App.started App.LetsPlay App.sevenNanos := by
    decide +kernel
  exact (App.plays_on String.toLower (by decide +kernel) (by decide +kernel) hsteps).1.trans
    (by decide +kernel)

end TcpVisr
