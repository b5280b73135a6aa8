import TcpVisr.Core

/-!
The playback transport: a cursor over the time domain of a capture, a speed ladder, and
play or pause. It advances by a wall-clock delta it is given and never reads a clock.
-/

namespace TcpVisr

/-- `t.clamp(lo, hi)`, which asserts `lo <= hi`. -/
def Nanos.clamp (t lo hi : Nanos) : Nanos :=
  if t.ns < lo.ns then lo else if hi.ns < t.ns then hi else t

/-- The exact ratio of each rung of the speed ladder. -/
def ratios : Fin 6 → ℕ × ℕ := ![(1, 10), (1, 2), (1, 1), (2, 1), (5, 1), (10, 1)]

def defaultSpeedIdx : Fin 6 := 2

/-- Cursor, speed and play state over the domain `[start, finish]`. -/
structure Transport where
  start : Nanos
  finish : Nanos
  cursor : Nanos
  speedIdx : Fin 6
  playing : Bool
  deriving DecidableEq

namespace Transport

/-- A paused transport at `start`, at normal speed. -/
def new (start finish : Nanos) : Transport := ⟨start, finish, start, defaultSpeedIdx, false⟩

/-- The cursor domain. -/
def bounds (tr : Transport) : Nanos × Nanos := (tr.start, tr.finish)

/-- Toggles play and pause. Starting from the end rewinds first. -/
def togglePlay (tr : Transport) : Transport :=
  if tr.playing then { tr with playing := false }
  else
    let tr := if tr.finish.ns ≤ tr.cursor.ns then { tr with cursor := tr.start } else tr
    { tr with playing := true }

/-- Steps one rung up the speed ladder. -/
def faster (tr : Transport) : Transport :=
  { tr with speedIdx := ⟨min (tr.speedIdx + 1) 5, by omega⟩ }

/-- Steps one rung down the speed ladder. -/
def slower (tr : Transport) : Transport :=
  { tr with speedIdx := ⟨tr.speedIdx - 1, by omega⟩ }

/-- Sets the cursor, clamped to the domain. -/
def setCursor (tr : Transport) (t : Nanos) : Transport :=
  { tr with cursor := t.clamp tr.start tr.finish }

/-- Moves the cursor by about 2% of the span, at least 1 ns. -/
def seek (tr : Transport) (forward : Bool) : Transport :=
  let step := max ((tr.finish.ns - tr.start.ns) / 50) 1
  let next := if forward then Nanos.sat (tr.cursor.ns + step) else Nanos.sat (tr.cursor.ns - step)
  tr.setCursor next

/-- Resets the domain and clamps the cursor into it. -/
def setDomain (tr : Transport) (start finish : Nanos) : Transport :=
  { tr with start, finish, cursor := tr.cursor.clamp start finish }

/-- When playing, advances the cursor by `speed * dt`, and pauses at the end. -/
def tick (tr : Transport) (dt : Nanos) : Transport :=
  if !tr.playing then tr
  else
    let (num, den) := ratios tr.speedIdx
    let adv := Nanos.sat (dt.ns * num / den)
    let next := Nanos.sat (tr.cursor.ns + adv.ns)
    let tr := { tr with cursor := if next.ns ≤ tr.finish.ns then next else tr.finish }
    if tr.finish.ns ≤ tr.cursor.ns then { tr with playing := false } else tr

end Transport

end TcpVisr
