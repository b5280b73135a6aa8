import Mathlib.Data.List.NodupEquivFin
import TcpVisr.Stepping

/-!
The rows of the master list.

A row is shown for each connection that resolves at the cursor and whose text embeds the query.
Their order is a strict one, since no two connections share an id, and so the rows do not tell
in which order a timeline was built. A longer query embeds in no more texts.
-/

namespace TcpVisr

open Lib.Runs Index

/-! ### Lower case -/

/-- What `str::to_lowercase` takes from Unicode: the lower case of a character, which may be
several, and of a capital sigma, which depends on the text before and after it. -/
structure Casing where
  table : Char → List Char
  sigma : List Char → List Char → Char

namespace Casing

variable (k : Casing)

/-- The lower case of what follows `before`. -/
def chars (before : List Char) : List Char → List Char
  | [] => []
  | c :: after =>
      (if c = 'Σ' then [k.sigma before after] else k.table c) ++ chars (before ++ [c]) after

/-- `str::to_lowercase`. -/
def toLowercase (s : String) : String := String.ofList (k.chars [] s.toList)

/-- Text that follows changes nothing that is not a capital sigma. -/
lemma chars_append {s : List Char} (hs : 'Σ' ∉ s) (before after : List Char) :
    k.chars before (s ++ after) = k.chars before s ++ k.chars (before ++ s) after := by
  induction s generalizing before with
  | nil => rw [List.nil_append, List.append_nil, chars, List.nil_append]
  | cons c s ih =>
      obtain ⟨hc, hs⟩ := not_or.mp (mt List.mem_cons.mpr hs)
      rw [List.cons_append, chars, chars, if_neg (Ne.symm hc), if_neg (Ne.symm hc), ih hs,
        List.append_assoc, List.append_assoc]
      rfl

end Casing

/-- Whether all characters are ASCII. -/
def Ascii (s : String) : Prop := ∀ c ∈ s.toList, c.toNat < 128

lemma Casing.toLowercase_push (k : Casing) {s : String} (hs : Ascii s) (c : Char) :
    (k.toLowercase s).toList <+: (k.toLowercase (s.push c)).toList := by
  have hsigma : 'Σ' ∉ s.toList := fun h => absurd (hs _ h) (by decide)
  unfold toLowercase
  rw [String.toList_ofList, String.toList_ofList, String.toList_push, chars_append k hsigma]
  exact List.prefix_append _ _

/-! ### Subsequences -/

/-- An order-preserving injection of the characters of `needle` into those of `haystack`. -/
def Embeds (needle haystack : List Char) : Prop :=
  ∃ f : ℕ ↪o ℕ, ∀ i, needle[i]? = haystack[f i]?

lemma embeds_iff {needle haystack : List Char} :
    Embeds needle haystack ↔ needle.Sublist haystack :=
  List.sublist_iff_exists_orderEmbedding_getElem?_eq.symm

/-- **The greedy match is complete.** It finds an embedding whenever there is one: the first
character may as well go to its first occurrence. -/
theorem isSubsequence_iff (needle haystack : List Char) :
    isSubsequence needle haystack = true ↔ Embeds needle haystack := by
  rw [embeds_iff]
  induction needle, haystack using isSubsequence.induct with
  | case1 haystack => simp [isSubsequence]
  | case2 n ns => simp [isSubsequence]
  | case3 ns h hs ih =>
      rw [isSubsequence, if_pos rfl, ih, List.cons_sublist_cons]
  | case4 n ns h hs hne ih =>
      rw [isSubsequence, if_neg hne, ih]
      refine ⟨List.Sublist.cons h, fun hsub => ?_⟩
      cases hsub with
      | cons _ hsub => exact hsub
      | cons_cons => exact absurd rfl hne

instance (needle haystack : List Char) : Decidable (Embeds needle haystack) :=
  decidable_of_iff _ (isSubsequence_iff needle haystack)

lemma Embeds.shorten {needle longer haystack : List Char} (h : needle <+: longer)
    (he : Embeds longer haystack) : Embeds needle haystack :=
  embeds_iff.mpr (h.sublist.trans (embeds_iff.mp he))

/-! ### The order -/

/-- The value of a field. -/
def SortField.value : SortField → ConnRow → ℕ
  | .peer, r => r.peer.key
  | .state, r => r.state.rank
  | .bytesUp, r => r.bytesUp
  | .bytesDown, r => r.bytesDown

/-- Ids are ordered by pair, low endpoint first, and then by instance. -/
def ConnId.key (id : ConnId) : ℕ ×ₗ ℕ ×ₗ ℕ :=
  toLex (id.pair.low.key, toLex (id.pair.high.key, id.inst))

lemma ConnId.key_inj {a b : ConnId} (h : a.key = b.key) : a = b := by
  obtain ⟨⟨la, ha⟩, ia⟩ := a
  obtain ⟨⟨lb, hb⟩, ib⟩ := b
  obtain ⟨h₁, h₂⟩ := Prod.mk.inj (toLex.injective h)
  obtain ⟨h₂, h₃⟩ := Prod.mk.inj (toLex.injective h₂)
  obtain rfl := Endpoint.key_inj h₁
  obtain rfl := Endpoint.key_inj h₂
  obtain rfl : ia = ib := h₃
  rfl

/-- The rows in the order of a field and a direction, ties by ascending id. -/
def Precedes (field : SortField) (dir : SortDir) (a b : ConnRow) : Prop :=
  (match dir with
    | .asc => field.value a < field.value b
    | .desc => field.value b < field.value a) ∨
  field.value a = field.value b ∧ a.id.key < b.id.key

section Order

variable {field : SortField} {dir : SortDir} {a b c : ConnRow}

/-- A linear order that the rows are sorted by. -/
def sortKey (field : SortField) (dir : SortDir) (r : ConnRow) : ℤ ×ₗ ℕ ×ₗ ℕ ×ₗ ℕ :=
  toLex (match dir with
    | .asc => (field.value r : ℤ)
    | .desc => -(field.value r : ℤ), r.id.key)

lemma precedes_iff : Precedes field dir a b ↔ sortKey field dir a < sortKey field dir b := by
  unfold Precedes sortKey
  rw [Prod.Lex.toLex_lt_toLex]
  cases dir with
  | asc => simp
  | desc => simp

lemma Precedes.irrefl (field : SortField) (dir : SortDir) (a : ConnRow) :
    ¬Precedes field dir a a := by
  rw [precedes_iff]
  exact lt_irrefl _

lemma Precedes.trans (h : Precedes field dir a b) (h' : Precedes field dir b c) :
    Precedes field dir a c := by
  rw [precedes_iff] at h h' ⊢
  exact h.trans h'

/-- Of two rows of different connections one precedes the other. -/
lemma Precedes.connex (field : SortField) (dir : SortDir) (h : a.id ≠ b.id) :
    Precedes field dir a b ∨ Precedes field dir b a := by
  rw [precedes_iff, precedes_iff]
  exact lt_or_gt_of_ne fun heq => h (ConnId.key_inj (Prod.mk.inj (toLex.injective heq)).2)

lemma cmp_lt_iff {a b : ConnId} :
    (a.pair.cmp b.pair).then (compare a.inst b.inst) = .lt ↔ a.key < b.key := by
  unfold EndpointPair.cmp ConnId.key
  simp only [Ordering.then_eq_lt, Ordering.then_eq_eq, compare_lt_iff_lt, compare_eq_iff_eq,
    Prod.Lex.toLex_lt_toLex]
  rw [or_assoc, and_assoc, ← and_or_left]

/-- What `order` compares: the field in its direction, and then the ids. -/
lemma order_eq (app : App) (a b : ConnRow) :
    app.order a b = (match app.sortDir with
      | .asc => compare (app.sortField.value a) (app.sortField.value b)
      | .desc => compare (app.sortField.value b) (app.sortField.value a)).then
        ((a.id.pair.cmp b.id.pair).then (compare a.id.inst b.id.inst)) := by
  unfold App.order
  dsimp only
  rw [Ordering.then_assoc]
  refine congrArg (Ordering.then · _) ?_
  cases app.sortDir with
  | asc =>
      rw [if_neg (by decide)]
      cases app.sortField <;> rfl
  | desc =>
      rw [if_pos rfl]
      cases app.sortField <;> exact Std.OrientedOrd.eq_swap.symm

lemma order_lt (app : App) (a b : ConnRow) :
    app.order a b = .lt ↔ Precedes app.sortField app.sortDir a b := by
  rw [order_eq, Ordering.then_eq_lt, cmp_lt_iff]
  unfold Precedes
  cases app.sortDir with
  | asc => rw [compare_lt_iff_lt, compare_eq_iff_eq]
  | desc => rw [compare_lt_iff_lt, compare_eq_iff_eq, eq_comm]

lemma EndpointPair.cmp_swap (p q : EndpointPair) : q.cmp p = (p.cmp q).swap := by
  unfold EndpointPair.cmp
  rw [Ordering.swap_then, ← Std.OrientedOrd.eq_swap, ← Std.OrientedOrd.eq_swap]

lemma order_swap (app : App) (a b : ConnRow) : app.order b a = (app.order a b).swap := by
  rw [order_eq, order_eq, Ordering.swap_then, Ordering.swap_then, ← EndpointPair.cmp_swap,
    ← Std.OrientedOrd.eq_swap]
  refine congrArg (Ordering.then · _) ?_
  cases app.sortDir <;> exact Std.OrientedOrd.eq_swap

/-- The sort keeps two rows as they are unless the second precedes the first. -/
lemma order_ne_gt (app : App) (a b : ConnRow) :
    app.order a b ≠ .gt ↔ ¬Precedes app.sortField app.sortDir b a := by
  rw [← order_lt, order_swap app a b, Ordering.swap_eq_lt]

end Order

/-! ### Rows that resolve -/

section Lists

variable {α β γ : Type} {f g : α → Option β}

lemma map_filterMap_sublist {key : β → γ} {key' : α → γ} (h : ∀ x y, f x = some y → key y = key' x)
    (l : List α) : ((l.filterMap f).map key).Sublist (l.map key') := by
  induction l with
  | nil => exact List.Sublist.refl _
  | cons x l ih =>
      cases hf : f x with
      | none =>
          rw [List.filterMap_cons_none hf]
          exact ih.cons _
      | some y =>
          rw [List.filterMap_cons_some hf, List.map_cons, List.map_cons, h x y hf]
          exact ih.cons_cons _

lemma filterMap_sublist_filterMap (h : ∀ x y, f x = some y → g x = some y) (l : List α) :
    (l.filterMap f).Sublist (l.filterMap g) := by
  induction l with
  | nil => exact List.Sublist.refl _
  | cons x l ih =>
      cases hf : f x with
      | none =>
          rw [List.filterMap_cons_none hf]
          exact ih.trans ((List.sublist_cons_self x l).filterMap g)
      | some y =>
          rw [List.filterMap_cons_some hf, List.filterMap_cons_some (h x y hf)]
          exact ih.cons_cons _

end Lists

/-- `tl'` is `tl`, built from its connections in another order. -/
structure Timeline.Reordered (tl tl' : Timeline) : Prop where
  entries : tl'.entries.Perm tl.entries
  start : tl'.start = tl.start
  finish : tl'.finish = tl.finish
  eventTimes : tl'.eventTimes = tl.eventTimes

lemma Timeline.Reordered.connections {tl tl' : Timeline} (h : tl.Reordered tl') :
    tl'.connections.Perm tl.connections := h.entries.map _

namespace App

/-- The search text of a resolved connection. -/
def searchText (lower : String → String) (m : ConnMeta) (a : AsOf) : String :=
  m.searchPrefix ++ " " ++ lower a.state.debug

/-- The row of a resolved connection. -/
def rowOf (m : ConnMeta) (a : AsOf) : ConnRow where
  id := a.id
  peer := m.peer
  host := m.host
  service := m.service
  state := a.state
  originInferred := m.originInferred
  bytesUp := a.bytesO2r
  bytesDown := a.bytesR2o

/-- The row of a resolved connection whose text embeds the query. -/
def hit (lower : String → String) (app : App) (a : AsOf) : Option ConnRow :=
  (app.metas a.id).bind fun m =>
    if Embeds (lower app.query).toList (searchText lower m a).toList then some (rowOf m a)
    else none

/-- No two connections of the timeline share an id. -/
def Distinct (app : App) : Prop := (app.timeline.connections.map Connection.id).Nodup

/-- Everything that is known of the rows of a state. -/
structure Listed (lower : String → String) (app : App) : Prop where
  known : ∀ a ∈ app.timeline.resolveAt app.transport.cursor, (app.metas a.id).isSome
  rows : (app.visible lower).Perm
    ((app.timeline.resolveAt app.transport.cursor).filterMap (app.hit lower))
  once : app.Distinct → ((app.visible lower).map ConnRow.id).Nodup
  sorted : (app.visible lower).Pairwise fun x y => ¬Precedes app.sortField app.sortDir y x
  strict : app.Distinct → (app.visible lower).Pairwise (Precedes app.sortField app.sortDir)
  reordered : app.Distinct → ∀ tl, app.timeline.Reordered tl →
    visible lower { app with timeline := tl } = app.visible lower
  appended : Ascii app.query → ∀ c,
    ((app.pushFilter lower c).visible lower).Subperm (app.visible lower)
  removed : ∀ c, ((app.pushFilter lower c).popFilter lower).visible lower = app.visible lower

section Visible

variable {lower : String → String} {app : App} {tl : Timeline}

lemma row_eq_hit (app : App) (a : AsOf) : app.row lower a (lower app.query) = app.hit lower a := by
  unfold row hit
  cases app.metas a.id with
  | none => rfl
  | some m =>
      refine if_congr ?_ rfl rfl
      exact isSubsequence_iff _ _

lemma visible_perm (app : App) : (app.visible lower).Perm
    ((app.timeline.resolveAt app.transport.cursor).filterMap (app.hit lower)) := by
  unfold visible
  dsimp only
  rw [funext fun a => row_eq_hit app a]
  exact List.perm_insertionSort _ _

lemma visible_sorted (app : App) :
    (app.visible lower).Pairwise fun x y => ¬Precedes app.sortField app.sortDir y x := by
  have hle (x y : ConnRow) : app.order x y ≠ .gt ↔
      sortKey app.sortField app.sortDir x ≤ sortKey app.sortField app.sortDir y := by
    rw [order_ne_gt, precedes_iff, not_lt]
  have : Std.Total fun x y => app.order x y ≠ .gt := by
    simp only [hle]
    exact ⟨fun _ _ => le_total _ _⟩
  have : IsTrans ConnRow fun x y => app.order x y ≠ .gt := by
    simp only [hle]
    exact ⟨fun _ _ _ => le_trans⟩
  exact (List.pairwise_insertionSort _ _).imp fun {x y} h => (order_ne_gt app x y).mp h

/-! #### One row for each id -/

lemma ids_resolveAt (tl : Timeline) (t : Nanos) :
    ((tl.resolveAt t).map AsOf.id).Sublist (tl.connections.map Connection.id) := by
  unfold Timeline.resolveAt Timeline.connections
  rw [List.map_map]
  refine (map_filterMap_sublist (fun e a h => ?_) _).trans (List.filter_sublist.map _)
  obtain ⟨s, -, rfl⟩ := Option.map_eq_some_iff.mp h
  rfl

lemma id_hit {a : AsOf} {r : ConnRow} (h : app.hit lower a = some r) : r.id = a.id := by
  obtain ⟨m, -, hm⟩ := Option.bind_eq_some_iff.mp h
  split at hm
  · obtain rfl := Option.some.inj hm
    rfl
  · cases hm

lemma nodup_visible (lower : String → String) (h : app.Distinct) :
    ((app.visible lower).map ConnRow.id).Nodup := by
  refine ((visible_perm app).map ConnRow.id).nodup_iff.mpr ?_
  refine h.sublist (List.Sublist.trans ?_ (ids_resolveAt app.timeline app.transport.cursor))
  exact map_filterMap_sublist (fun _ _ => id_hit) _

lemma visible_strict (lower : String → String) (h : app.Distinct) :
    (app.visible lower).Pairwise (Precedes app.sortField app.sortDir) := by
  have hids := List.pairwise_map.mp (nodup_visible lower h)
  refine ((visible_sorted app).and hids).imp fun {x y} ⟨hnot, hne⟩ => ?_
  exact (Precedes.connex _ _ hne).resolve_right hnot

/-- A strict order leaves no choice. -/
lemma visible_unique {app' : App} (hrows : (app'.visible lower).Perm (app.visible lower))
    (hfield : app'.sortField = app.sortField) (hdir : app'.sortDir = app.sortDir)
    (h : app.Distinct) (h' : app'.Distinct) : app'.visible lower = app.visible lower := by
  have hs' := visible_strict lower h'
  rw [hfield, hdir] at hs'
  refine List.Perm.eq_of_pairwise (fun x y _ _ hxy hyx => ?_) hs' (visible_strict lower h) hrows
  exact absurd (hxy.trans hyx) (Precedes.irrefl _ _ _)

/-! #### The order of construction -/

lemma visible_reordered (lower : String → String) (app : App) (h : app.Distinct)
    (ht : app.timeline.Reordered tl) :
    visible lower { app with timeline := tl } = app.visible lower := by
  refine visible_unique ?_ rfl rfl h ((ht.connections.map _).nodup_iff.mpr h)
  refine (visible_perm _).trans (List.Perm.trans ?_ (visible_perm app).symm)
  exact ((ht.entries.filter _).filterMap _).filterMap _

/-- The metas do not depend on the order in which connections come, if none comes twice. -/
lemma insertMetas_perm (lower : String → String) (names : NameTable)
    (metas : ConnId → Option ConnMeta) {cs cs' : List Connection} (h : cs'.Perm cs)
    (hn : (cs.map Connection.id).Nodup) :
    insertMetas lower names metas cs' = insertMetas lower names metas cs := by
  have hids := h.map Connection.id
  funext id
  by_cases hid : id ∈ cs.map Connection.id
  · obtain ⟨c, hc, rfl⟩ := List.mem_map.mp hid
    rw [insertMetas_of_mem hn hc, insertMetas_of_mem (hids.nodup_iff.mpr hn) (h.mem_iff.mpr hc)]
  · rw [insertMetas_of_not_mem hid, insertMetas_of_not_mem (mt hids.mem_iff.mp hid)]

/-- An app over a reordered timeline is the same but for the timeline. -/
lemma newWithNames_reordered {tl' : Timeline} (ht : tl.Reordered tl')
    (hn : (tl.connections.map Connection.id).Nodup) (names : NameTable) (title : String) :
    newWithNames lower tl' names title =
      { newWithNames lower tl names title with timeline := tl' } := by
  have hmetas := insertMetas_perm lower names (fun _ => none) ht.connections hn
  unfold newWithNames Timeline.bounds
  dsimp only
  rw [ht.start, ht.finish, hmetas]
  refine congrArg
    (App.mk tl' _ _ .peer .asc .nav "" · title false .timeSequence false false {} names)
    (congrArg (fun v : List ConnRow => v.head?.map ConnRow.id) ?_)
  exact visible_reordered lower
    { timeline := tl
      transport := Transport.new tl.start tl.finish
      metas := insertMetas lower names (fun _ => none) tl.connections
      title
      names } hn ht

lemma reconcile_reordered (app : App) (h : app.Distinct) (ht : app.timeline.Reordered tl) :
    reconcileSelection lower { app with timeline := tl } =
      { app.reconcileSelection lower with timeline := tl } := by
  unfold reconcileSelection
  dsimp only
  rw [visible_reordered lower app h ht]
  split <;> rfl

/-- So is an app that is handed one. -/
lemma retarget_reordered {tl' : Timeline} (ht : tl.Reordered tl')
    (hn : (tl.connections.map Connection.id).Nodup) (app : App) (horizon now : Nanos)
    (status : LiveStatus) :
    app.retarget lower tl' horizon now status =
      { app.retarget lower tl horizon now status with timeline := tl' } := by
  have hids := ht.connections.map Connection.id
  have hpresent (id : ConnId) : id ∈ tl'.connections.map Connection.id ↔
      id ∈ tl.connections.map Connection.id := hids.mem_iff
  unfold retarget
  dsimp only
  simp only [hpresent]
  rw [insertMetas_perm lower app.names _ (ht.connections.filter _)
    (hn.sublist (List.filter_sublist.map _))]
  exact reconcile_reordered { app with
    metas := _, timeline := tl, liveStatus := status, transport := _ } hn ht

/-! #### The query -/

/-- A reconciliation only selects. -/
lemma exists_reconcile (lower : String → String) (app : App) :
    ∃ s, app.reconcileSelection lower = { app with selected := s } := by
  unfold reconcileSelection
  dsimp only
  split
  · exact ⟨app.selected, rfl⟩
  · exact ⟨_, rfl⟩

lemma visible_reconcile (app : App) :
    (app.reconcileSelection lower).visible lower = app.visible lower := by
  obtain ⟨s, hs⟩ := exists_reconcile lower app
  rw [hs]
  rfl

/-- **A longer query shows no more rows.** -/
lemma visible_pushFilter {c : Char}
    (hlower : (lower app.query).toList <+: (lower (app.query.push c)).toList) :
    ((app.pushFilter lower c).visible lower).Subperm (app.visible lower) := by
  unfold pushFilter
  rw [visible_reconcile]
  have hsub : ((app.timeline.resolveAt app.transport.cursor).filterMap
      (hit lower { app with query := app.query.push c })).Sublist
      ((app.timeline.resolveAt app.transport.cursor).filterMap (app.hit lower)) := by
    refine filterMap_sublist_filterMap (fun a r hr => ?_) _
    obtain ⟨m, hm, hr⟩ := Option.bind_eq_some_iff.mp hr
    refine Option.bind_eq_some_iff.mpr ⟨m, hm, ?_⟩
    split at hr
    · next he =>
        rw [if_pos (he.shorten hlower)]
        exact hr
    · cases hr
  exact (visible_perm _).subperm.trans (hsub.subperm.trans (visible_perm app).symm.subperm)

lemma visible_popFilter (app : App) (c : Char) :
    ((app.pushFilter lower c).popFilter lower).visible lower = app.visible lower := by
  have hquery : String.ofList (app.query.push c).toList.dropLast = app.query := by
    rw [String.toList_push, List.dropLast_concat, String.ofList_toList]
  unfold popFilter pushFilter
  rw [visible_reconcile]
  obtain ⟨s, hs⟩ := exists_reconcile lower { app with query := app.query.push c }
  rw [hs]
  dsimp only
  rw [hquery]
  rfl

/-! #### What is known of every connection -/

/-- Every connection of the timeline has been projected. -/
def Known (app : App) : Prop := ∀ c ∈ app.timeline.connections, (app.metas c.id).isSome

lemma isSome_insertMetas {names : NameTable} {metas : ConnId → Option ConnMeta} {id : ConnId}
    {cs : List Connection} (h : (metas id).isSome ∨ id ∈ cs.map Connection.id) :
    (insertMetas lower names metas cs id).isSome := by
  induction cs generalizing metas with
  | nil => exact h.resolve_right (List.not_mem_nil)
  | cons c cs ih =>
      refine ih ?_
      dsimp only
      by_cases hid : id = c.id
      · left
        rw [hid, Function.update_self]
        rfl
      · rw [Function.update_of_ne hid]
        exact h.imp_right fun hmem => (List.mem_cons.mp hmem).resolve_left hid

lemma known_newWithNames (lower : String → String) (tl : Timeline) (names : NameTable)
    (title : String) : (newWithNames lower tl names title).Known := fun _ hc =>
  isSome_insertMetas (.inr (List.mem_map_of_mem hc))

lemma known_retarget (app : App) (tl : Timeline) (horizon now : Nanos) (status : LiveStatus) :
    (app.retarget lower tl horizon now status).Known := by
  intro c hc
  rw [timeline_retarget] at hc
  unfold retarget
  rw [metas_reconcile]
  refine isSome_insertMetas ?_
  cases hm : (if c.id ∈ tl.connections.map Connection.id then app.metas c.id else none) with
  | some m => exact .inl rfl
  | none =>
      refine .inr (List.mem_map_of_mem (List.mem_filter.mpr ⟨hc, ?_⟩))
      dsimp only
      rw [hm]
      rfl

lemma known_run (lower : String → String) (o : Opening) (events : List AppEvent) :
    (run (App.handle lower) (o.app lower) events).Known := by
  refine inv_frames (F := fun _ => True) ?_ (fun app app' h hd c hc => ?_)
    (fun app timeline horizon now status _ => known_retarget app timeline horizon now status)
    fun _ _ => trivial
  · cases o with
    | replay timeline names title => exact known_newWithNames lower timeline names title
    | live names title => exact known_newWithNames lower (Timeline.withSeq []) names title
  · rw [hd.timeline] at hc
    rw [hd.metas]
    exact h c hc

/-- **The rows of a state** whose connections are known. -/
theorem listed (k : Casing) (h : app.Known) : app.Listed k.toLowercase := by
  constructor
  · intro a ha
    have hid := (ids_resolveAt app.timeline app.transport.cursor).subset (List.mem_map_of_mem ha)
    obtain ⟨c, hc, hid⟩ := List.mem_map.mp hid
    exact hid ▸ h c hc
  · exact visible_perm app
  · exact nodup_visible k.toLowercase
  · exact visible_sorted app
  · exact visible_strict k.toLowercase
  · exact fun hd tl ht => visible_reordered k.toLowercase app hd ht
  · exact fun ha c => visible_pushFilter (k.toLowercase_push ha c)
  · exact visible_popFilter app

end Visible

end App

/-! ### Timelines of a tracker -/

section Timelines

variable {conns conns' : List ConnSeries}

lemma connections_withSeqEnding (conns : List ConnSeries) (finish : Nanos) :
    (Timeline.withSeqEnding conns finish).connections = conns.map ConnSeries.conn := by
  simp [Timeline.withSeqEnding, Timeline.connections, Timeline.entry, List.map_map,
    Function.comp_def]

lemma Timeline.Tracked.distinct {tl : Timeline} (h : tl.Tracked) :
    (tl.connections.map Connection.id).Nodup := by
  obtain ⟨cfg, items, htl⟩ := h
  have hconns : tl.connections = (Tracker.track cfg items).conns.map ConnTrack.view := by
    rcases htl with rfl | htl
    · exact Live.connections_snapshot _
    · obtain ⟨-, rfl⟩ := Seek.timeline_of_ok htl
      rw [Timeline.withSeq, connections_withSeqEnding, List.map_map]
      rfl
  rw [hconns, List.map_map]
  exact nodup_ids (indexed_track cfg items)

lemma distinct_run (lower : String → String) {o : Opening} (ho : o.Tracked)
    {events : List AppEvent} (he : ∀ e ∈ events, e.Framed) :
    (run (App.handle lower) (o.app lower) events).Distinct := by
  refine App.inv_frames ?_ (fun app app' h hd => ?_)
    (fun app timeline horizon now status hf => ?_) he
  · cases o with
    | replay timeline names title => exact Timeline.Tracked.distinct ho
    | live names title => exact List.nodup_nil
  · unfold App.Distinct
    rw [hd.timeline]
    exact h
  · unfold App.Distinct
    rw [App.timeline_retarget]
    exact hf.1.distinct

lemma maxTime_perm {l l' : List Nanos} (h : l'.Perm l) : maxTime l' = maxTime l := by
  unfold maxTime
  refine h.foldl_eq' (fun x _ y _ z => ?_) _
  ext
  simp only [Nanos.ns_max]
  omega

lemma minTime_perm {l l' : List Nanos} (h : l'.Perm l) : minTime l' = minTime l := by
  by_cases hl : l = []
  · rw [hl] at h ⊢
    rw [h.eq_nil]
  · have hl' : l' ≠ [] := fun hnil => hl (hnil ▸ h).nil_eq.symm
    ext
    exact le_antisymm (Timeline.minTime_le_of_mem (h.mem_iff.mpr (Timeline.minTime_mem hl)))
      (Timeline.minTime_le_of_mem (h.mem_iff.mp (Timeline.minTime_mem hl')))

lemma sortDedup_perm {l l' : List Nanos} (h : l'.Perm l) : sortDedup l' = sortDedup l := by
  have hnodup (l : List Nanos) : (sortDedup l).Nodup :=
    (Timeline.sortDedup_sorted l).imp fun {a b} hlt heq => absurd hlt (by rw [heq]; omega)
  refine List.Perm.eq_of_pairwise (fun a b _ _ hab hba => absurd (hab.trans hba) (lt_irrefl _))
    (Timeline.sortDedup_sorted l') (Timeline.sortDedup_sorted l)
    ((List.perm_ext_iff_of_nodup (hnodup l') (hnodup l)).mpr fun x => ?_)
  rw [Timeline.mem_sortDedup, Timeline.mem_sortDedup, h.mem_iff]

/-- Connections given in another order give a reordered timeline. -/
lemma reordered_withSeq (h : conns'.Perm conns) :
    (Timeline.withSeq conns).Reordered (Timeline.withSeq conns') := by
  have hfinish := maxTime_perm (h.map fun c => c.conn.lastAt)
  unfold Timeline.withSeq
  rw [hfinish]
  exact ⟨h.map _, minTime_perm (h.flatMap_right _), rfl, sortDedup_perm (h.flatMap_right _)⟩

/-- **The rows.** In every state of an app, however it is built and driven. -/
theorem rows_listed (k : Casing) :
    (∀ needle haystack, isSubsequence needle haystack = true ↔ Embeds needle haystack) ∧
      (∀ o events, App.Listed k.toLowercase
        (run (App.handle k.toLowercase) (Opening.app k.toLowercase o) events)) ∧
      (∀ o events, o.Tracked → (∀ e ∈ events, e.Framed) →
        (run (App.handle k.toLowercase) (Opening.app k.toLowercase o) events).Distinct) ∧
      (∀ field dir, (∀ a, ¬Precedes field dir a a) ∧
        (∀ a b c, Precedes field dir a b → Precedes field dir b c → Precedes field dir a c) ∧
        ∀ a b, a.id ≠ b.id → Precedes field dir a b ∨ Precedes field dir b a) ∧
      (∀ conns conns' : List ConnSeries, conns'.Perm conns →
        (Timeline.withSeq conns).Reordered (Timeline.withSeq conns')) ∧
      ∀ tl tl' : Timeline, tl.Reordered tl' → (tl.connections.map Connection.id).Nodup →
        (∀ names title, App.newWithNames k.toLowercase tl' names title =
          { App.newWithNames k.toLowercase tl names title with timeline := tl' }) ∧
        ∀ (app : App) (horizon now : Nanos) (status : LiveStatus),
          app.retarget k.toLowercase tl' horizon now status =
            { app.retarget k.toLowercase tl horizon now status with timeline := tl' } :=
  ⟨isSubsequence_iff, fun o events => App.listed k (App.known_run _ o events),
    fun _ _ ho he => distinct_run _ ho he,
    fun field dir => ⟨Precedes.irrefl field dir, fun _ _ _ => Precedes.trans,
      fun _ _ => Precedes.connex field dir⟩,
    fun _ _ => reordered_withSeq,
    fun _ _ ht hn => ⟨App.newWithNames_reordered ht hn, App.retarget_reordered ht hn⟩⟩

end Timelines

/-- ASCII lower case. -/
def asciiCasing : Casing := ⟨fun c => [c.toLower], fun _ _ => 'σ'⟩

/-- A live session: a frame of two open connections, the order of peers reversed, and a query. -/
def typedQuery : List AppEvent :=
  [.retarget (Tracker.track
      { retention := .evict (Nanos.sat 100) 100, collectStateTimeline := true }
      [.segment (.between 1 2 0 0x10 5 4), .segment (.between 3 4 20 0x10 5 4)]).snapshot
      (Nanos.sat 0) (Nanos.sat 20) {},
    .key ⟨.char 'S', false⟩, .key ⟨.char '/', false⟩, .key ⟨.char 'E', false⟩]

/-- The states of both rows embed the query, and one more character leaves none. With a query of
an address alone in its place, the row of that peer is left. -/
theorem rows_listed_typedQuery :
    let lower := asciiCasing.toLowercase
    let app := run (App.handle lower) (Opening.app lower (.live {} "")) typedQuery
    let addressed := run (App.handle lower) (Opening.app lower (.live {} ""))
      (typedQuery.take 3 ++ [.key ⟨.char '.', false⟩, .key ⟨.char '4', false⟩])
    app.Listed lower ∧ app.Distinct ∧
      (app.visible lower).map ConnRow.peer = [⟨.v4 4, 80⟩, ⟨.v4 2, 80⟩] ∧
      (app.pushFilter lower 'x').visible lower = [] ∧
      addressed.Listed lower ∧ (addressed.visible lower).map ConnRow.peer = [⟨.v4 4, 80⟩] := by
  refine ⟨(rows_listed asciiCasing).2.1 (.live {} "") typedQuery,
    (rows_listed asciiCasing).2.2.1 (.live {} "") typedQuery trivial fun e he => ?_, ?_, ?_,
    (rows_listed asciiCasing).2.1 (.live {} "") _, ?_⟩
  · simp only [typedQuery, List.mem_cons, List.not_mem_nil, or_false] at he
    obtain rfl | rfl | rfl | rfl := he
    · exact ⟨⟨_, _, Or.inl rfl⟩, by decide⟩
    · trivial
    · trivial
    · trivial
  · decide +kernel
  · decide +kernel
  · decide +kernel

end TcpVisr
