import Mathlib.Data.List.Infix
import Mathlib.Logic.Function.Basic
import Mathlib.Tactic

/-!
A bounded channel that loses what does not fit, and the counters its sender shares with its
receiver.

A message is stamped with what the counters stood at when it was sent. The receiver loads a
counter without ordering: it may get an older value, but none older than one it has loaded
before, nor than what a message it has taken was stamped with.
-/

namespace TcpVisr.Lib.Channel

variable {α ι : Type*}

/-- A message under way. -/
structure Msg (α ι : Type*) where
  body : α
  stamp : ι → ℕ

/-- A channel with the counters beside it. `offered` and `taken` are ghosts, the history of
either end; `seen` is what the receiver's next loads cannot fall behind. -/
structure Link (α ι : Type*) where
  queue : List (Msg α ι) := []
  counts : ι → ℕ := fun _ => 0
  seen : ι → ℕ := fun _ => 0
  offered : List α := []
  taken : List (Msg α ι) := []

namespace Link

/-- What the receiver has taken. -/
def received (l : Link α ι) : List α := l.taken.map Msg.body

/-- What got through, taken or not. -/
def through (l : Link α ι) : List (Msg α ι) := l.taken ++ l.queue

/-- Takes the oldest message, if there is one. What the sender did before it sent the message
is seen from now on. -/
def take (l : Link α ι) : Link α ι :=
  match l.queue with
  | [] => l
  | m :: queue =>
    { l with
      queue
      taken := l.taken ++ [m]
      seen := fun i => max (l.seen i) (m.stamp i) }

/-- A load of counter `i` may return `n`. -/
def Loads (l : Link α ι) (i : ι) (n : ℕ) : Prop := l.seen i ≤ n ∧ n ≤ l.counts i

instance (l : Link α ι) (i : ι) (n : ℕ) : Decidable (l.Loads i n) :=
  inferInstanceAs (Decidable (_ ∧ _))

section Update

variable [DecidableEq ι]

/-- Adds one to a counter. -/
def bump (l : Link α ι) (i : ι) : Link α ι :=
  { l with counts := Function.update l.counts i (l.counts i + 1) }

/-- Sends without waiting: without room the message is lost, and counted under `loss`. -/
def offer (cap : ℕ) (loss : ι) (l : Link α ι) (x : α) : Link α ι :=
  if l.queue.length < cap then
    { l with queue := l.queue ++ [⟨x, l.counts⟩], offered := l.offered ++ [x] }
  else { l.bump loss with offered := l.offered ++ [x] }

/-- Loads counter `i`, which returns `n`. -/
def load (l : Link α ι) (i : ι) (n : ℕ) : Link α ι :=
  { l with seen := Function.update l.seen i n }

@[simp] lemma counts_bump_self (l : Link α ι) (i : ι) : (l.bump i).counts i = l.counts i + 1 :=
  Function.update_self _ _ _

@[simp] lemma seen_load_self (l : Link α ι) (i : ι) (n : ℕ) : (l.load i n).seen i = n :=
  Function.update_self _ _ _

lemma seen_load_of_ne {i j : ι} (h : j ≠ i) (l : Link α ι) (n : ℕ) :
    (l.load i n).seen j = l.seen j :=
  Function.update_of_ne h _ _

@[simp] lemma offered_offer (cap : ℕ) (loss : ι) (l : Link α ι) (x : α) :
    (l.offer cap loss x).offered = l.offered ++ [x] := by
  unfold offer
  split <;> rfl

@[simp] lemma taken_offer (cap : ℕ) (loss : ι) (l : Link α ι) (x : α) :
    (l.offer cap loss x).taken = l.taken := by
  unfold offer
  split <;> rfl

@[simp] lemma seen_offer (cap : ℕ) (loss : ι) (l : Link α ι) (x : α) :
    (l.offer cap loss x).seen = l.seen := by
  unfold offer
  split <;> rfl

/-- An offer touches no counter but that of the losses. -/
lemma counts_offer {i loss : ι} (hi : i ≠ loss) (cap : ℕ) (l : Link α ι) (x : α) :
    (l.offer cap loss x).counts i = l.counts i := by
  unfold offer
  split
  · rfl
  · exact Function.update_of_ne hi _ _

end Update

lemma received_take {l : Link α ι} {m : Msg α ι} {queue : List (Msg α ι)}
    (h : l.queue = m :: queue) : l.take.received = l.received ++ [m.body] := by
  simp [take, h, received]

lemma offered_take (l : Link α ι) : l.take.offered = l.offered := by
  unfold take
  split <;> rfl

lemma counts_take (l : Link α ι) : l.take.counts = l.counts := by
  unfold take
  split <;> rfl

end Link

/-! ### What was offered against what got through -/

/-- `ms` is what got through of the offers `l`, of which `n` were lost. A message is stamped
with the losses before it, and with a stamp that `R` relates to the offers up to it. -/
inductive Transcript (R : List α → (ι → ℕ) → Prop) (loss : ι) :
    List α → List (Msg α ι) → ℕ → Prop
  | nil : Transcript R loss [] [] 0
  | sent {l : List α} {ms : List (Msg α ι)} {n : ℕ} (h : Transcript R loss l ms n) (x : α)
      (stamp : ι → ℕ) (hs : stamp loss = n) (hR : R (l ++ [x]) stamp) :
      Transcript R loss (l ++ [x]) (ms ++ [⟨x, stamp⟩]) n
  | lost {l : List α} {ms : List (Msg α ι)} {n : ℕ} (h : Transcript R loss l ms n) (x : α) :
      Transcript R loss (l ++ [x]) ms (n + 1)

namespace Transcript

variable {R R' : List α → (ι → ℕ) → Prop} {loss : ι} {l : List α} {ms : List (Msg α ι)} {n : ℕ}

lemma mono (hR : ∀ l stamp, R l stamp → R' l stamp) (h : Transcript R loss l ms n) :
    Transcript R' loss l ms n := by
  induction h with
  | nil => exact .nil
  | sent _ x stamp hs hr ih => exact ih.sent x stamp hs (hR _ _ hr)
  | lost _ x ih => exact ih.lost x

/-- Nothing is made up, doubled or reordered. -/
lemma sublist (h : Transcript R loss l ms n) : (ms.map Msg.body).Sublist l := by
  induction h with
  | nil => exact .slnil
  | sent _ x _ _ _ ih =>
      rw [List.map_append]
      exact ih.append (List.Sublist.refl [x])
  | lost _ x ih => exact ih.trans (List.sublist_append_left _ [x])

/-- What did not get through was counted. -/
lemma length (h : Transcript R loss l ms n) : ms.length + n = l.length := by
  induction h with
  | nil => rfl
  | sent _ x _ _ _ ih =>
      simp only [List.length_append, List.length_singleton]
      omega
  | lost _ x ih =>
      simp only [List.length_append, List.length_singleton]
      omega

/-- **Up to a message that got through** the offers are what got through before it and as many
more as its stamp says were lost. -/
theorem upto (h : Transcript R loss l ms n) {ms₁ : List (Msg α ι)} {m : Msg α ι}
    (hm : ms₁ ++ [m] <+: ms) :
    ∃ p, p <+: l ∧ ((ms₁ ++ [m]).map Msg.body).Sublist p ∧
      p.length = (ms₁ ++ [m]).length + m.stamp loss ∧ R p m.stamp := by
  induction h with
  | nil => simp at hm
  | @sent l ms n h x stamp hs hr ih =>
      rcases List.prefix_concat_iff.mp hm with heq | hm
      · obtain ⟨rfl, hlast⟩ := List.append_inj' heq rfl
        obtain rfl : m = ⟨x, stamp⟩ := by simpa using hlast
        refine ⟨l ++ [x], List.prefix_rfl, ?_, ?_, hr⟩
        · rw [List.map_append]
          exact h.sublist.append (List.Sublist.refl [x])
        · have hlen := h.length
          simp only [List.length_append, List.length_singleton, hs]
          omega
      · obtain ⟨p, hp, hrest⟩ := ih hm
        exact ⟨p, hp.trans (List.prefix_append _ _), hrest⟩
  | lost h x ih =>
      obtain ⟨p, hp, hrest⟩ := ih hm
      exact ⟨p, hp.trans (List.prefix_append _ _), hrest⟩

end Transcript

/-! ### The invariant -/

/-- What holds of a channel of capacity `cap` at all times. -/
structure Sound (cap : ℕ) (R : List α → (ι → ℕ) → Prop) (loss : ι) (l : Link α ι) : Prop where
  room : l.queue.length ≤ cap
  transcript : Transcript R loss l.offered l.through (l.counts loss)
  seen_le : ∀ i, l.seen i ≤ l.counts i
  stamp_le : ∀ m ∈ l.queue, ∀ i, m.stamp i ≤ l.counts i
  taken_le : ∀ m ∈ l.taken, ∀ i, m.stamp i ≤ l.seen i

namespace Sound

variable {cap : ℕ} {R R' : List α → (ι → ℕ) → Prop} {loss : ι} {l : Link α ι}

lemma new : Sound cap R loss ({} : Link α ι) :=
  ⟨Nat.zero_le _, .nil, fun _ => le_rfl, by simp, by simp⟩

lemma mono (hR : ∀ l stamp, R l stamp → R' l stamp) (h : Sound cap R loss l) :
    Sound cap R' loss l :=
  ⟨h.room, h.transcript.mono hR, h.seen_le, h.stamp_le, h.taken_le⟩

lemma take (h : Sound cap R loss l) : Sound cap R loss l.take := by
  unfold Link.take
  split
  · exact h
  · next m queue hq =>
      have hthrough : l.through = l.taken ++ m :: queue := by rw [Link.through, hq]
      refine ⟨?_, ?_, fun i => ?_, fun m' hm' => ?_, fun m' hm' i => ?_⟩
      · have := h.room
        rw [hq, List.length_cons] at this
        exact (Nat.le_succ _).trans this
      · have := h.transcript
        rw [hthrough] at this
        simpa [Link.through] using this
      · exact max_le (h.seen_le i) (h.stamp_le m (by simp [hq]) i)
      · exact h.stamp_le m' (by rw [hq]; exact List.mem_cons_of_mem m hm')
      · rcases List.mem_append.mp hm' with hm' | hm'
        · exact (h.taken_le m' hm' i).trans (le_max_left _ _)
        · obtain rfl := List.mem_singleton.mp hm'
          exact le_max_right _ _

section Update

variable [DecidableEq ι]

lemma counts_le_bump (l : Link α ι) (i j : ι) : l.counts j ≤ (l.bump i).counts j := by
  unfold Link.bump
  by_cases hj : j = i
  · subst hj
    simp
  · simp [Function.update_of_ne hj]

/-- A counter other than that of the losses may be added to at any time. -/
lemma bump (h : Sound cap R loss l) {i : ι} (hi : i ≠ loss) : Sound cap R loss (l.bump i) := by
  refine ⟨h.room, ?_, fun j => (h.seen_le j).trans (counts_le_bump l i j),
    fun m hm j => (h.stamp_le m hm j).trans (counts_le_bump l i j), h.taken_le⟩
  change Transcript R loss l.offered l.through (Function.update l.counts i _ loss)
  rw [Function.update_of_ne hi.symm]
  exact h.transcript

lemma offer (h : Sound cap R loss l) {x : α} (hx : R (l.offered ++ [x]) l.counts) :
    Sound cap R loss (l.offer cap loss x) := by
  unfold Link.offer
  split
  · next hroom =>
      refine ⟨?_, ?_, h.seen_le, fun m hm i => ?_, h.taken_le⟩
      · rw [List.length_append]
        exact hroom
      · have := h.transcript.sent x l.counts rfl hx
        simpa only [Link.through, List.append_assoc] using this
      · rcases List.mem_append.mp hm with hm | hm
        · exact h.stamp_le m hm i
        · obtain rfl := List.mem_singleton.mp hm
          exact le_rfl
  · refine ⟨h.room, ?_, fun i => (h.seen_le i).trans (counts_le_bump l loss i),
      fun m hm i => (h.stamp_le m hm i).trans (counts_le_bump l loss i), h.taken_le⟩
    change Transcript R loss (l.offered ++ [x]) l.through (Function.update l.counts loss _ loss)
    rw [Function.update_self]
    exact h.transcript.lost x

lemma load (h : Sound cap R loss l) {i : ι} {n : ℕ} (hn : l.Loads i n) :
    Sound cap R loss (l.load i n) := by
  have hseen : ∀ j, l.seen j ≤ Function.update l.seen i n j := by
    intro j
    by_cases hj : j = i
    · subst hj
      simpa using hn.1
    · simp [Function.update_of_ne hj]
  refine ⟨h.room, h.transcript, fun j => ?_, h.stamp_le, fun m hm j =>
    (h.taken_le m hm j).trans (hseen j)⟩
  change Function.update l.seen i n j ≤ l.counts j
  by_cases hj : j = i
  · subst hj
    simpa using hn.2
  · simpa [Function.update_of_ne hj] using h.seen_le j

end Update

/-- What is offered, taken and lost adds up. -/
lemma balance (h : Sound cap R loss l) :
    l.taken.length + l.queue.length + l.counts loss = l.offered.length := by
  have := h.transcript.length
  rwa [Link.through, List.length_append] at this

/-- **What a loaded loss count accounts for.** The messages taken so far are among the first
offers, as many as were taken and at most `n` more, if `n` is what the loss count has been
seen at. -/
theorem accounted (h : Sound cap R loss l) {n : ℕ} (hn : l.seen loss ≤ n) :
    ∃ p, p <+: l.offered ∧ l.received.Sublist p ∧ p.length ≤ l.taken.length + n ∧
      (p = [] ∨ ∃ stamp, (∀ i, stamp i ≤ l.seen i) ∧ R p stamp) := by
  rcases List.eq_nil_or_concat l.taken with hnil | ⟨ms, m, hlast⟩
  · exact ⟨[], List.nil_prefix, by simp [Link.received, hnil], by simp, .inl rfl⟩
  · rw [List.concat_eq_append] at hlast
    have hpre : ms ++ [m] <+: l.through := by
      rw [Link.through, hlast]
      exact List.prefix_append _ _
    obtain ⟨p, hp, hsub, hlen, hR⟩ := h.transcript.upto hpre
    have hm : ∀ i, m.stamp i ≤ l.seen i := h.taken_le m (by rw [hlast]; simp)
    refine ⟨p, hp, ?_, ?_, .inr ⟨m.stamp, hm, hR⟩⟩
    · rw [Link.received, hlast]
      exact hsub
    · have := (hm loss).trans hn
      rw [hlast]
      omega

/-- A loss count of zero means that nothing is missing from what was taken. -/
lemma exact_of_seen_zero (h : Sound cap R loss l) (h0 : l.seen loss = 0) :
    l.received <+: l.offered := by
  obtain ⟨p, hp, hsub, hlen, -⟩ := h.accounted h0.le
  have heq : l.received = p := hsub.eq_of_length_le (by simpa [Link.received] using hlen)
  exact heq ▸ hp

end Sound

end TcpVisr.Lib.Channel
