import TcpVisr.Recording

/-!
What the recording functions do to a slot.

Each call either appends the samples it is asked to, or, at the ceiling, makes room on the
same connection or refuses. `Recorded` collects what every composition of such calls keeps;
`recordAll` is the composition itself, one sample after the other.
-/

namespace TcpVisr.Slots

open Recording

/-- The lifecycle part of a connection: what is left when the derivation and the retained
series are blanked. -/
def core (c : ConnTrack) : ConnTrack := { c with derived := {}, kept := {} }

/-- Connections with one lifecycle part agree on all that depends on nothing else. -/
lemma eq_of_core {α : Type*} (f : ConnTrack → α) {c c' : ConnTrack} (h : core c' = core c)
    (hf : ∀ c, f (core c) = f c := by exact fun _ => rfl) : f c' = f c := by
  rw [← hf c', h, hf]

/-- The slot with other retained series and another count. -/
def put (s : Slot) (k : Retained) (n : ℕ) : Slot :=
  { s with track := { s.track with kept := k }, collectedSamples := n }

@[simp] lemma put_kept (s : Slot) (k : Retained) (n : ℕ) : (put s k n).track.kept = k := rfl
@[simp] lemma put_collected (s : Slot) (k : Retained) (n : ℕ) :
    (put s k n).collectedSamples = n := rfl
@[simp] lemma put_put (s : Slot) (k k' : Retained) (n n' : ℕ) :
    put (put s k n) k' n' = put s k' n' := rfl
/-- The four outcomes of admitting and storing a sample. -/
inductive Stored (cfg : EngineConfig) (x : Sample) (s : Slot) : Slot → Prop
  | room (hn : s.collectedSamples < cfg.retention.maxSamples) :
      Stored cfg x s (put s (s.track.kept.push x) (s.collectedSamples + 1))
  | swap {k : Retained} (hn : cfg.retention.maxSamples ≤ s.collectedSamples)
      (hw : cfg.retention.window.isSome) (hd : DropsFronts s.track.kept k)
      (hc : k.count + 1 = s.track.kept.count) (hs : spare k + 1 = spare s.track.kept) :
      Stored cfg x s (put s (k.push x) (s.collectedSamples - 1 + 1))
  | spill (hn : cfg.retention.maxSamples ≤ s.collectedSamples)
      (hw : cfg.retention.window.isSome) (hs : spare s.track.kept = 0) :
      Stored cfg x s (put s (s.track.kept.push x) (s.collectedSamples + 1))
  | refuse (hn : cfg.retention.maxSamples ≤ s.collectedSamples)
      (hw : cfg.retention.window = none) :
      Stored cfg x s { s with overflowed := true }

variable (cfg : EngineConfig)

lemma store_cases (s : Slot) (x : Sample) : Stored cfg x s (s.store cfg x) := by
  by_cases hn : cfg.retention.maxSamples ≤ s.collectedSamples
  · by_cases hw : cfg.retention.window.isSome
    · rcases pop_cases s.track.kept with ⟨hp, hs⟩ | ⟨k, hp, hd, hc, hs⟩
      · have : s.store cfg x = put s (s.track.kept.push x) (s.collectedSamples + 1) := by
          simp [Slot.store, Slot.admitSample, hn, hw, Slot.evictOldestGlobal, hp, put]
        exact this ▸ .spill hn hw hs
      · have : s.store cfg x = put s (k.push x) (s.collectedSamples - 1 + 1) := by
          simp [Slot.store, Slot.admitSample, hn, hw, Slot.evictOldestGlobal, hp, put]
        exact this ▸ .swap hn hw hd hc hs
    · have : s.store cfg x = { s with overflowed := true } := by
        simp [Slot.store, Slot.admitSample, hn, hw]
      exact this ▸ .refuse hn (by simpa using hw)
  · have : s.store cfg x = put s (s.track.kept.push x) (s.collectedSamples + 1) := by
      simp [Slot.store, Slot.admitSample, hn, put]
    exact this ▸ .room (by omega)

/-! ### What every recording call keeps -/

/-- `k'` grows out of `k`: fronts dropped and samples meeting `P` appended, in some order. -/
inductive Grows (P : Sample → Prop) (k : Retained) : Retained → Prop
  | refl : Grows P k k
  | drop {k' k'' : Retained} (h : Grows P k k') (hd : DropsFronts k' k'') : Grows P k k''
  | push {k' : Retained} {x : Sample} (h : Grows P k k') (hx : P x) : Grows P k (k'.push x)

variable {cfg} {P Q : Sample → Prop} {k k' k'' : Retained} {s s' s'' : Slot}

lemma Grows.trans (h : Grows P k k') (h' : Grows P k' k'') : Grows P k k'' := by
  induction h' with
  | refl => exact h
  | drop _ hd ih => exact ih.drop hd
  | push _ hx ih => exact ih.push hx

lemma Grows.imp (h : Grows P k k') (hPQ : ∀ x, P x → Q x) : Grows Q k k' := by
  induction h with
  | refl => exact .refl
  | drop _ hd ih => exact ih.drop hd
  | push _ hx ih => exact ih.push (hPQ _ hx)

/-- **The growth rule.** A property of the retained series that dropping fronts and appending
a sample meeting `P` keep is kept by growth. -/
lemma Grows.keeps {I : Retained → Prop} (h : Grows P k k') (h0 : I k)
    (hd : ∀ k k', I k → DropsFronts k k' → I k') (hp : ∀ k x, I k → P x → I (k.push x)) :
    I k' := by
  induction h with
  | refl => exact h0
  | drop _ hdr ih => exact hd _ _ ih hdr
  | push _ hx ih => exact hp _ _ ih hx

lemma ne_nil_of_drops (hd : DropsFronts k k') (h : k.states ≠ []) : k'.states ≠ [] := by
  intro hnil
  have hl := hd.last
  rw [hnil] at hl
  exact h (List.getLast?_eq_none_iff.mp hl.symm)

lemma ne_nil_of_grows (hg : Grows P k k') (h : k.states ≠ []) : k'.states ≠ [] := by
  refine hg.keeps (I := fun k => k.states ≠ []) h (fun _ _ h hd => ne_nil_of_drops hd h) ?_
  intro k x h _
  cases x with
  | state x => simp [Retained.push]
  | _ => exact h

/-- What recording samples that meet `P` keeps of a slot. -/
structure Recorded (cfg : EngineConfig) (P : Sample → Prop) (s s' : Slot) : Prop where
  core : core s'.track = core s.track
  grows : Grows P s.track.kept s'.track.kept
  balance : s.track.kept.count ≤ s.collectedSamples →
    s'.collectedSamples + s.track.kept.count = s.collectedSamples + s'.track.kept.count
  mono : s.collectedSamples ≤ s'.collectedSamples
  overflow : s.overflowed = true → s'.overflowed = true
  evict : cfg.retention.window.isSome → s'.overflowed = s.overflowed

lemma Recorded.refl (s : Slot) : Recorded cfg P s s :=
  ⟨rfl, .refl, fun _ => rfl, le_rfl, id, fun _ => rfl⟩

lemma Recorded.trans (h : Recorded cfg P s s') (h' : Recorded cfg P s' s'') :
    Recorded cfg P s s'' where
  core := h'.core.trans h.core
  grows := h.grows.trans h'.grows
  balance hk := by
    have h1 := h.balance hk
    have h2 := h'.balance (by omega)
    omega
  mono := h.mono.trans h'.mono
  overflow ho := h'.overflow (h.overflow ho)
  evict hw := (h'.evict hw).trans (h.evict hw)

lemma Recorded.imp (h : Recorded cfg P s s') (hPQ : ∀ x, P x → Q x) : Recorded cfg Q s s' :=
  { h with grows := h.grows.imp hPQ }

lemma Recorded.not_overflowed (h : Recorded cfg P s s') (ho : s'.overflowed = false) :
    s.overflowed = false := by
  cases hs : s.overflowed with
  | false => rfl
  | true => rw [h.overflow hs] at ho; exact absurd ho (by simp)

/-- Replacing what derivation remembers records nothing. -/
lemma Recorded.rederive (s : Slot) (d : Derivation) :
    Recorded cfg P s { s with track := { s.track with derived := d } } :=
  ⟨rfl, .refl, fun _ => rfl, le_rfl, id, fun _ => rfl⟩

lemma recorded_store (cfg : EngineConfig) {x : Sample} (hx : P x) (s : Slot) :
    Recorded cfg P s (s.store cfg x) := by
  have h := store_cases cfg s x
  generalize s.store cfg x = s' at h
  cases h with
  | room hn =>
      refine ⟨rfl, Grows.refl.push hx, fun _ => ?_, by simp, id, fun _ => rfl⟩
      simp only [put_collected, put_kept, count_push]
      omega
  | swap hn hw hd hc hs =>
      refine ⟨rfl, (Grows.refl.drop hd).push hx, fun hk => ?_, ?_, id, fun _ => rfl⟩
      · simp only [put_collected, put_kept, count_push]
        omega
      · simp only [put_collected]
        omega
  | spill hn hw hs =>
      refine ⟨rfl, Grows.refl.push hx, fun _ => ?_, by simp, id, fun _ => rfl⟩
      simp only [put_collected, put_kept, count_push]
      omega
  | refuse hn hw =>
      exact ⟨rfl, .refl, fun _ => rfl, le_rfl, fun _ => rfl, fun h => by simp [hw] at h⟩

lemma recorded_record {x : Sample} (hx : P x) (s : Slot) : Recorded cfg P s (s.record cfg x) := by
  unfold Slot.record
  split
  · exact .refl s
  · exact recorded_store cfg hx s

/-! ### Recording a list of samples -/

/-- Record the samples of a list, one after the other. -/
def recordAll (cfg : EngineConfig) (xs : List Sample) (s : Slot) : Slot :=
  xs.foldl (Slot.record cfg) s

@[simp] lemma recordAll_nil (s : Slot) : recordAll cfg [] s = s := rfl

@[simp] lemma recordAll_cons (x : Sample) (xs : List Sample) (s : Slot) :
    recordAll cfg (x :: xs) s = recordAll cfg xs (s.record cfg x) := rfl

lemma recordAll_append (xs ys : List Sample) (s : Slot) :
    recordAll cfg (xs ++ ys) s = recordAll cfg ys (recordAll cfg xs s) := by
  simp [recordAll, List.foldl_append]

lemma recorded_recordAll (cfg : EngineConfig) {xs : List Sample} (hx : ∀ x ∈ xs, P x) (s : Slot) :
    Recorded cfg P s (recordAll cfg xs s) := by
  induction xs generalizing s with
  | nil => exact .refl s
  | cons x xs ih =>
      exact (recorded_record (hx x (by simp)) s).trans (ih (fun y hy => hx y (by simp [hy])) _)

lemma recorded_any (cfg : EngineConfig) (xs : List Sample) (s : Slot) :
    Recorded cfg (fun _ => True) s (recordAll cfg xs s) :=
  recorded_recordAll cfg (fun _ _ => trivial) s

lemma recordAll_overflowed (xs : List Sample) {s : Slot} (h : s.overflowed = true) :
    recordAll cfg xs s = s := by
  induction xs with
  | nil => rfl
  | cons x xs ih => rw [recordAll_cons, Slot.record, if_pos h, ih]

/-- The retained series with a list of samples appended. -/
def pushAll (k : Retained) (xs : List Sample) : Retained := xs.foldl Retained.push k

@[simp] lemma pushAll_nil (k : Retained) : pushAll k [] = k := rfl

@[simp] lemma pushAll_cons (k : Retained) (x : Sample) (xs : List Sample) :
    pushAll k (x :: xs) = pushAll (k.push x) xs := rfl

lemma pushAll_append (k : Retained) (xs ys : List Sample) :
    pushAll k (xs ++ ys) = pushAll (pushAll k xs) ys := by
  simp [pushAll, List.foldl_append]

lemma store_of_room (hn : s.collectedSamples < cfg.retention.maxSamples) (x : Sample) :
    s.store cfg x = put s (s.track.kept.push x) (s.collectedSamples + 1) := by
  simp [Slot.store, Slot.admitSample, hn.not_ge, put]

/-- **Below the ceiling, recording is appending.** -/
theorem recordAll_of_fits {xs : List Sample} (ho : s.overflowed = false)
    (hn : s.collectedSamples + xs.length ≤ cfg.retention.maxSamples) :
    recordAll cfg xs s = put s (pushAll s.track.kept xs) (s.collectedSamples + xs.length) := by
  induction xs generalizing s with
  | nil => rfl
  | cons x xs ih =>
      rw [List.length_cons] at hn
      rw [recordAll_cons, Slot.record, if_neg (by simp [ho]), store_of_room (by omega),
        ih (s := put s (s.track.kept.push x) (s.collectedSamples + 1)) ho
          (by rw [put_collected]; omega)]
      simp only [put_put, put_kept, put_collected, pushAll_cons, List.length_cons]
      congr 1
      omega

/-- Recording never ends below the ceiling when what it is asked to record does not fit. -/
lemma le_collected_recordAll (xs : List Sample) (ho : s.overflowed = false) :
    min cfg.retention.maxSamples (s.collectedSamples + xs.length) ≤
      (recordAll cfg xs s).collectedSamples := by
  induction xs generalizing s with
  | nil => simp
  | cons x xs ih =>
      by_cases hn : s.collectedSamples < cfg.retention.maxSamples
      · have h := ih (s := put s (s.track.kept.push x) (s.collectedSamples + 1)) ho
        rw [recordAll_cons, Slot.record, if_neg (by simp [ho]), store_of_room hn]
        rw [put_collected] at h
        rw [List.length_cons]
        omega
      · have := (recorded_any cfg (x :: xs) s).mono
        omega

/-- Under fail-fast, recording that does not overflow is appending. -/
theorem recordAll_of_not_overflowed {xs : List Sample} (hw : cfg.retention.window = none)
    (ho : (recordAll cfg xs s).overflowed = false) :
    recordAll cfg xs s = put s (pushAll s.track.kept xs) (s.collectedSamples + xs.length) := by
  induction xs generalizing s with
  | nil => rfl
  | cons x xs ih =>
      have ho' : s.overflowed = false := by
        by_contra h
        rw [recordAll_overflowed _ (by simpa using h)] at ho
        exact h ho
      have hr : s.record cfg x = s.store cfg x := by simp [Slot.record, ho']
      rw [recordAll_cons, hr] at ho ⊢
      have h := store_cases cfg s x
      generalize s.store cfg x = s' at h ho ⊢
      cases h with
      | room hn' =>
          rw [ih (s := put s (s.track.kept.push x) (s.collectedSamples + 1)) ho]
          simp only [put_put, put_kept, put_collected, pushAll_cons, List.length_cons]
          congr 1
          omega
      | swap _ hw' _ _ _ => simp [hw] at hw'
      | spill _ hw' _ => simp [hw] at hw'
      | refuse _ _ => rw [recordAll_overflowed xs rfl] at ho; simp at ho

end TcpVisr.Slots
