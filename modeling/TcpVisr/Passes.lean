import TcpVisr.Plan

/-!
The two passes over all connections: the decay samples of a tick and the ageing of every
series.

Ageing one connection never looks at another, so the pass is a map; the decay samples
depend on each other through the count, so that pass is described by what each connection
may become.
-/

namespace TcpVisr.Passes

open Recording Slots Plan

/-- How many samples the connections of a list retain. -/
def retained (cs : List ConnTrack) : ℕ := (cs.map fun c => c.kept.count).sum

@[simp] lemma retained_nil : retained [] = 0 := rfl

@[simp] lemma retained_cons (c : ConnTrack) (cs : List ConnTrack) :
    retained (c :: cs) = c.kept.count + retained cs := rfl

@[simp] lemma retained_append (cs cs' : List ConnTrack) :
    retained (cs ++ cs') = retained cs + retained cs' := by
  simp [retained]

/-- A connection with its series aged. -/
def aged (h : ℕ) (c : ConnTrack) : ConnTrack := { c with kept := age h c.kept }

@[simp] lemma aged_kept (h : ℕ) (c : ConnTrack) : (aged h c).kept = age h c.kept := rfl
@[simp] lemma aged_derived (h : ℕ) (c : ConnTrack) : (aged h c).derived = c.derived := rfl
@[simp] lemma core_aged (h : ℕ) (c : ConnTrack) : core (aged h c) = core c := rfl
@[simp] lemma aged_zero (c : ConnTrack) : aged 0 c = c := by simp [aged]

lemma retained_aged_le (h : ℕ) (cs : List ConnTrack) :
    retained (cs.map (aged h)) ≤ retained cs := by
  induction cs with
  | nil => simp
  | cons c cs ih =>
      have := count_age_le h c.kept
      simp only [List.map_cons, retained_cons, aged_kept]
      omega

/-- The eviction pass ages every connection and counts down what it drops. -/
lemma eachSlot_evict (h : ℕ) (cs : List ConnTrack) (n : ℕ) (o : Bool) :
    Tracker.eachSlot (Slot.evict h) cs n o =
      (cs.map (aged h), n - (retained cs - retained (cs.map (aged h))), o) := by
  induction cs generalizing n o with
  | nil => simp [Tracker.eachSlot]
  | cons c cs ih =>
      have h1 := count_age_le h c.kept
      have h2 := retained_aged_le h cs
      simp only [Tracker.eachSlot, Slot.evict, evict_eq, ih, List.map_cons, retained_cons,
        aged_kept, Prod.mk.injEq, and_true]
      exact ⟨rfl, by omega⟩

section

variable {cfg : EngineConfig} {P : Sample → Prop} {f : Slot → Slot}

/-- What a pass that records keeps of each connection. -/
structure Fed (P : Sample → Prop) (c c' : ConnTrack) : Prop where
  core : core c' = core c
  grows : Grows P c.kept c'.kept

/-- What a pass of recording calls makes of the connections, the count and the flag. -/
lemma eachSlot_recorded (hf : ∀ s, Recorded cfg P s (f s)) (cs : List ConnTrack) (n : ℕ)
    (o : Bool) :
    ∃ cs' n' o', Tracker.eachSlot f cs n o = (cs', n', o') ∧ List.Forall₂ (Fed P) cs cs' ∧
      (retained cs ≤ n → n' + retained cs = n + retained cs') ∧ n ≤ n' ∧
      (cfg.retention.window.isSome → o' = o) := by
  induction cs generalizing n o with
  | nil => exact ⟨[], n, o, rfl, .nil, by simp, le_rfl, fun _ => rfl⟩
  | cons c cs ih =>
      have hs := hf ⟨c, n, o⟩
      obtain ⟨cs', n', o', heq, hall, hbal, hmono, hflag⟩ :=
        ih (f ⟨c, n, o⟩).collectedSamples (f ⟨c, n, o⟩).overflowed
      have hbal₁ := hs.balance
      have hmono₁ := hs.mono
      simp only at hbal₁ hmono₁
      refine ⟨_, n', o', by rw [Tracker.eachSlot, heq], .cons ⟨hs.core, hs.grows⟩ hall,
        fun hle => ?_, hmono₁.trans hmono, fun hw => (hflag hw).trans (hs.evict hw)⟩
      simp only [retained_cons] at hle ⊢
      have h1 := hbal₁ (by omega)
      have h2 := hbal (by omega)
      omega

end

/-- A pass over connections changed by `g`, if `g` commutes with what the pass does to each. -/
lemma eachSlot_map {f f' : Slot → Slot} {g : ConnTrack → ConnTrack} (cs : List ConnTrack)
    (hf : ∀ c ∈ cs, ∀ n o, f' (retrack g ⟨c, n, o⟩) = retrack g (f ⟨c, n, o⟩)) (n : ℕ) (o : Bool) :
    Tracker.eachSlot f' (cs.map g) n o =
      ((Tracker.eachSlot f cs n o).1.map g, (Tracker.eachSlot f cs n o).2) := by
  induction cs generalizing n o with
  | nil => rfl
  | cons c cs ih =>
      have h : f' ⟨g c, n, o⟩ = retrack g (f ⟨c, n, o⟩) := hf c List.mem_cons_self n o
      simp only [List.map_cons, Tracker.eachSlot, h]
      change (_ :: (Tracker.eachSlot f' (cs.map g) _ _).1, _) = _
      rw [ih fun d hd => hf d (List.mem_cons_of_mem c hd)]
      rfl

/-- What a pass makes of every connection holds of all it leaves. -/
lemma forall_eachSlot {f : Slot → Slot} {P : ConnTrack → Prop} (cs : List ConnTrack)
    (hf : ∀ c ∈ cs, ∀ n o, P (f ⟨c, n, o⟩).track) (n : ℕ) (o : Bool) :
    ∀ c ∈ (Tracker.eachSlot f cs n o).1, P c := by
  induction cs generalizing n o with
  | nil => simp [Tracker.eachSlot]
  | cons c cs ih =>
      refine List.forall_mem_cons.mpr ⟨hf c List.mem_cons_self n o, ?_⟩
      exact ih (fun d hd => hf d (List.mem_cons_of_mem c hd)) _ _

lemma map_core_of_fed {P : Sample → Prop} {cs cs' : List ConnTrack}
    (h : List.Forall₂ (Fed P) cs cs') : cs'.map core = cs.map core := by
  induction h with
  | nil => rfl
  | cons hc _ ih => rw [List.map_cons, List.map_cons, hc.core, ih]

end TcpVisr.Passes
