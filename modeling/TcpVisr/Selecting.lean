import TcpVisr.App
import TcpVisr.Tracker

/-!
The selection of the master list: when the selected connection has a row on screen.

Every operation either ends by reconciling the selection, or moves it within the rows, or
leaves untouched all that the rows depend on. One does none of these: following "now" again
moves the cursor and keeps the selection as it is.
-/

namespace TcpVisr

open Lib.Runs

/-- `selected` is one of `ids`, and is empty only if they are. -/
def Chosen (selected : Option ConnId) (ids : List ConnId) : Prop :=
  (selected = none ↔ ids = []) ∧ ∀ id, selected = some id → id ∈ ids

/-- How an app is built. -/
inductive Opening
  | replay (timeline : Timeline) (names : NameTable) (title : String)
  | live (names : NameTable) (title : String)

namespace App

variable (lower : String → String)

/-- The ids of the connections that have a row with the cursor at `t`, in timeline order. -/
def shownAt (app : App) (t : Nanos) : List ConnId :=
  ((app.timeline.resolveAt t).filterMap fun a => app.row lower a (lower app.query)).map ConnRow.id

/-- The selection is empty exactly if nothing is visible, and is one of the visible rows. -/
def Selected (app : App) : Prop :=
  (app.selected = none ↔ app.visible lower = []) ∧
    ∀ id, app.selected = some id → ∃ r ∈ app.visible lower, r.id = id

variable {lower}

lemma mem_visible_id {app : App} {id : ConnId} :
    (∃ r ∈ app.visible lower, r.id = id) ↔ id ∈ app.shownAt lower app.transport.cursor := by
  simp [visible, shownAt]

lemma visible_eq_nil {app : App} :
    app.visible lower = [] ↔ app.shownAt lower app.transport.cursor = [] := by
  unfold visible shownAt
  rw [List.map_eq_nil_iff, ← List.length_eq_zero_iff, List.length_insertionSort,
    List.length_eq_zero_iff]

/-- The order of the rows does not matter to the selection. -/
lemma selected_iff {app : App} :
    app.Selected lower ↔ Chosen app.selected (app.shownAt lower app.transport.cursor) := by
  unfold Selected Chosen
  rw [visible_eq_nil]
  simp only [mem_visible_id]

/-! ### The operations that settle the selection -/

lemma selected_set (app : App) (s : Option ConnId) :
    Selected lower { app with selected := s } ↔ (s = none ↔ app.visible lower = []) ∧
      ∀ id, s = some id → ∃ r ∈ app.visible lower, r.id = id :=
  Iff.rfl

/-- Selecting by position, when the position is within the rows or there are none. -/
lemma selected_getElem? (app : App) {i : ℕ}
    (hi : app.visible lower ≠ [] → i < (app.visible lower).length) :
    Selected lower { app with selected := (app.visible lower)[i]?.map ConnRow.id } := by
  rw [selected_set]
  by_cases hnil : app.visible lower = []
  · simp [hnil]
  · rw [List.getElem?_eq_getElem (hi hnil)]
    refine ⟨by simpa using hnil, fun id hid => ⟨_, List.getElem_mem (hi hnil), ?_⟩⟩
    exact Option.some.inj hid

lemma selected_head (app : App) :
    Selected lower { app with selected := (app.visible lower).head?.map ConnRow.id } := by
  rw [List.head?_eq_getElem?]
  exact selected_getElem? app List.length_pos_iff.mpr

/-- Reconciling settles the selection, whatever it was. -/
theorem selected_reconcile (app : App) : (app.reconcileSelection lower).Selected lower := by
  unfold reconcileSelection
  by_cases h : app.selected.any fun id => (app.visible lower).any fun r => r.id = id
  · simp only [h, if_true]
    obtain ⟨id, hid, hany⟩ := (Option.any_eq_true _ _).mp h
    obtain ⟨r, hr, hrid⟩ := List.any_eq_true.mp hany
    refine ⟨?_, fun id' hid' => ⟨r, hr, ?_⟩⟩
    · simp [hid, List.ne_nil_of_mem hr]
    · obtain rfl : id = id' := Option.some.inj (hid.symm.trans hid')
      exact of_decide_eq_true hrid
  · simp only [h]
    exact selected_head app

/-- Moving the selection keeps it on a row. -/
theorem selected_moveBy (app : App) (step : Step) : (app.moveBy lower step).Selected lower := by
  unfold moveBy
  by_cases h : (app.visible lower).length = 0
  · have hnil := List.length_eq_zero_iff.mp h
    simp only [h, if_true]
    rw [selected_set]
    exact ⟨by simp [hnil], by simp⟩
  · have hlt : ((app.selected.bind fun id =>
        (app.visible lower).findIdx? fun r => r.id = id).getD 0) < (app.visible lower).length := by
      cases hb : app.selected.bind fun id => (app.visible lower).findIdx? fun r => r.id = id with
      | none => simp only [Option.getD_none]; omega
      | some i =>
          obtain ⟨id, -, hi⟩ := Option.bind_eq_some_iff.mp hb
          exact (List.findIdx?_eq_some_iff_getElem.mp hi).1
    simp only [h, if_false]
    apply selected_getElem?
    intro _
    cases step with
    | up => exact (Nat.sub_le _ _).trans_lt hlt
    | down => simp only; omega

/-! ### The operations that leave the rows alone -/

/-- The selection and all that the rows depend on, up to their order. -/
structure SameRows (app app' : App) : Prop where
  selected : app'.selected = app.selected
  timeline : app'.timeline = app.timeline
  cursor : app'.transport.cursor = app.transport.cursor
  metas : app'.metas = app.metas
  query : app'.query = app.query

lemma SameRows.refl (app : App) : SameRows app app := ⟨rfl, rfl, rfl, rfl, rfl⟩

lemma SameRows.shownAt {app app' : App} (h : SameRows app app') (t : Nanos) :
    app'.shownAt lower t = app.shownAt lower t := by
  unfold App.shownAt App.row
  rw [h.timeline, h.metas, h.query]

lemma SameRows.selected_iff {app app' : App} (h : SameRows app app') :
    app'.Selected lower ↔ app.Selected lower := by
  rw [App.selected_iff, App.selected_iff, h.shownAt, h.selected, h.cursor]

lemma sameRows_freezeIfLive (app : App) : SameRows app app.freezeIfLive := by
  unfold freezeIfLive
  split <;> exact ⟨rfl, rfl, rfl, rfl, rfl⟩

/-! ### One step -/

/-- The press of Space by which a frozen live app follows "now" again. -/
def Refollows (app : App) (e : AppEvent) : Prop :=
  ∃ key, e = .key key ∧ key.code = .char ' ' ∧ app.mode = .nav ∧ app.isLive = true ∧
    app.follow = false

/-- What an operation does to the selection. -/
inductive Settles (lower : String → String) (app app' : App) : Prop
  | reconciled (app₁ : App) (h : app' = app₁.reconcileSelection lower)
  | moved (step : Step) (h : app' = app.moveBy lower step)
  | same (h : SameRows app app')

lemma settles_step {app app' : App} (h : SameRows app app') (o : Option Nanos) :
    Settles lower app (match o with
      | some t =>
        reconcileSelection lower { app' with transport := app'.transport.setCursor t }
      | none => app') := by
  cases o with
  | none => exact .same h
  | some t => exact .reconciled _ rfl

lemma settles_space (app : App) (h : app.isLive = true → app.follow = true) :
    Settles lower app (if app.isLive then app.toggleFollow else app.togglePlay lower) := by
  by_cases hl : app.isLive
  · refine .same ?_
    simp only [hl, if_true, toggleFollow, h hl]
    exact ⟨rfl, rfl, rfl, rfl, rfl⟩
  · simp only [hl]
    exact .reconciled _ rfl

lemma settles_nav (app : App) (code : KeyCode)
    (h : code = .char ' ' → app.isLive = true → app.follow = true) :
    Settles lower app (handleNav lower app code).1 := by
  have hf := sameRows_freezeIfLive app
  unfold handleNav
  split
  · exact .same (.refl app)
  · exact .same ⟨rfl, rfl, rfl, rfl, rfl⟩
  · exact .same ⟨rfl, rfl, rfl, rfl, rfl⟩
  · exact .same ⟨rfl, rfl, rfl, rfl, rfl⟩
  · exact .moved .down rfl
  · exact .moved .down rfl
  · exact .moved .up rfl
  · exact .moved .up rfl
  · exact settles_space app (h rfl)
  · exact .reconciled _ rfl
  · exact .reconciled _ rfl
  · exact .same ⟨rfl, rfl, rfl, rfl, rfl⟩
  · exact .same ⟨rfl, rfl, rfl, rfl, rfl⟩
  · exact .same ⟨rfl, rfl, rfl, rfl, rfl⟩
  · exact .same ⟨rfl, rfl, rfl, rfl, rfl⟩
  · exact settles_step hf _
  · exact settles_step hf _
  · refine .same ?_
    unfold openDetail
    split <;> exact ⟨rfl, rfl, rfl, rfl, rfl⟩
  · exact .same ⟨rfl, rfl, rfl, rfl, rfl⟩
  · exact .same ⟨rfl, rfl, rfl, rfl, rfl⟩
  · exact .same (.refl app)

lemma settles_filter (app : App) (code : KeyCode) :
    Settles lower app (handleFilter lower app code) := by
  unfold handleFilter
  split
  · exact .same ⟨rfl, rfl, rfl, rfl, rfl⟩
  · exact .reconciled _ rfl
  · exact .reconciled _ rfl
  · exact .reconciled _ rfl
  · exact .same (.refl app)

lemma settles_tick (app : App) (dt : Nanos) : Settles lower app (app.tick lower dt) := by
  unfold tick
  by_cases h : (app.transport.tick dt).cursor = app.transport.cursor
  · simp only [h, ne_eq, not_true, if_false]
    exact .same ⟨rfl, rfl, h, rfl, rfl⟩
  · simp only [ne_eq, h, not_false_iff, if_true]
    exact .reconciled _ rfl

/-- **What a step does.** Every event but the one that follows "now" again settles the
selection. -/
theorem settles_handle {app : App} {e : AppEvent} (h : ¬ app.Refollows e) :
    Settles lower app (app.handle lower e) := by
  cases e with
  | key key =>
      change Settles lower app (handleKey lower app key).1
      unfold handleKey
      by_cases hq : (key.control && key.code = .char 'c') = true
      · rw [if_pos hq]
        exact .same (.refl app)
      · rw [if_neg hq]
        cases hm : app.mode with
        | nav =>
            refine settles_nav app key.code fun hsp hl => ?_
            by_contra hfol
            exact h ⟨key, rfl, hsp, hm, hl, by simpa using hfol⟩
        | filter => exact settles_filter app key.code
  | tick dt => exact settles_tick app dt
  | retarget timeline horizon now status => exact .reconciled _ rfl
  | name obs => exact .same ⟨rfl, rfl, rfl, rfl, rfl⟩

lemma Settles.selected {app app' : App} (h : Settles lower app app') (hs : app.Selected lower) :
    app'.Selected lower := by
  cases h with
  | reconciled app₁ h => rw [h]; exact selected_reconcile app₁
  | moved step h => rw [h]; exact selected_moveBy app step
  | same h => exact h.selected_iff.mpr hs

/-- Where the cursor stands when a frozen app follows again: at the domain's end. -/
def followCursor (app : App) : Nanos := (app.transport.setCursor app.transport.bounds.2).cursor

/-- The one step that can lose the selection, and what it needs to keep it: the connections
shown at the domain's end suit the selection made before. -/
def Suits (lower : String → String) (app : App) (e : AppEvent) : Prop :=
  app.Refollows e → Chosen app.selected (app.shownAt lower app.followCursor)

lemma handle_refollow {app : App} {e : AppEvent} (h : app.Refollows e) :
    app.handle lower e =
      { app with follow := true, transport := app.transport.setCursor app.transport.bounds.2 } := by
  obtain ⟨key, rfl, hsp, hm, hl, hf⟩ := h
  simp [handle, handleKey, hsp, hm, handleNav, hl, toggleFollow, hf]

/-- A step keeps the selection on screen exactly if it suits. -/
theorem selected_handle_iff {app : App} {e : AppEvent} (hs : app.Selected lower) :
    (app.handle lower e).Selected lower ↔ app.Suits lower e := by
  unfold Suits
  by_cases h : app.Refollows e
  · rw [handle_refollow h, selected_iff]
    simp only [h, true_imp_iff]
    exact Iff.rfl
  · simp only [h, false_imp_iff, iff_true]
    exact (settles_handle h).selected hs

end App

/-- The app as it is built. -/
def Opening.app (lower : String → String) : Opening → App
  | .replay timeline names title => App.newWithNames lower timeline names title
  | .live names title => App.newLive lower names title

lemma selected_opening (lower : String → String) (o : Opening) :
    (o.app lower).Selected lower := by
  cases o with
  | replay timeline names title => exact App.selected_head _
  | live names title =>
      have h : App.SameRows (App.newWithNames lower (Timeline.withSeq []) names title)
          (App.newLive lower names title) := ⟨rfl, rfl, rfl, rfl, rfl⟩
      exact h.selected_iff.mpr (App.selected_head _)

/-- **The selection over a run.** However an app is built and whatever keys, ticks, snapshots
and names drive it, the selection stays on screen exactly as long as every press of Space
that follows "now" again finds the selection suited to the rows at the domain's end. -/
theorem always_selected_iff (lower : String → String) (o : Opening) (events : List AppEvent) :
    Always (App.handle lower) (o.app lower) (App.Selected lower) events ↔
      Steps (App.handle lower) (o.app lower) (App.Suits lower) events :=
  always_iff_steps (I := fun _ => True) (fun _ => trivial) (selected_opening lower o)
    (fun _ _ _ hs => App.selected_handle_iff hs) events

/-! ### A lost selection -/

namespace App

/-- A live capture of two connections: the first resets at 10, the second opens at 20. -/
def twoConns : Timeline :=
  (Tracker.track { retention := .evict (Nanos.sat 100) 100, collectStateTimeline := true }
    [.segment (.between 1 2 0 0x10 5 4), .segment (.between 1 2 10 0x04 9),
      .segment (.between 3 4 20 0x10 5 4)]).snapshot

/-- A live session: a frame at 20, a step back to the event at 10, and Space. -/
def backAndFollow : List AppEvent :=
  [.retarget twoConns (Nanos.sat 0) (Nanos.sat 20) {}, .key ⟨.char ',', false⟩,
    .key ⟨.char ' ', false⟩]

end App

/-- After the step back the reset connection is selected; following again shows the other one
and leaves the selection where it was. -/
theorem follow_loses_selection :
    ¬ Always (App.handle String.toLower) (Opening.app String.toLower (.live {} ""))
      (App.Selected String.toLower) App.backAndFollow := by
  intro h
  have h := (h _ List.prefix_rfl).2
  revert h
  decide +kernel

end TcpVisr
