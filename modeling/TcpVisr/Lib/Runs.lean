import Mathlib.Data.List.Infix
import Mathlib.Tactic

/-!
Runs of a deterministic machine: a step function folded over a list of inputs, and the
rules that carry a fact from one step to a whole run.

A run is named by the inputs read so far, so "after every step" is a statement about
every prefix of the inputs.
-/

namespace TcpVisr.Lib.Runs

variable {σ τ ι : Type*}

/-- The state after the inputs `is`, from `s₀`. -/
def run (step : σ → ι → σ) (s₀ : σ) (is : List ι) : σ := is.foldl step s₀

@[simp] lemma run_nil (step : σ → ι → σ) (s₀ : σ) : run step s₀ [] = s₀ := rfl

lemma run_cons (step : σ → ι → σ) (s₀ : σ) (x : ι) (is : List ι) :
    run step s₀ (x :: is) = run step (step s₀ x) is := rfl

lemma run_append (step : σ → ι → σ) (s₀ : σ) (p q : List ι) :
    run step s₀ (p ++ q) = run step (run step s₀ p) q := by
  simp [run, List.foldl_append]

@[simp] lemma run_snoc (step : σ → ι → σ) (s₀ : σ) (p : List ι) (x : ι) :
    run step s₀ (p ++ [x]) = step (run step s₀ p) x := by
  simp [run, List.foldl_append]

section Steps

variable (step : σ → ι → σ) (s₀ : σ)

/-- Every step of the run on `is` is taken from a state and on an input that meet `G`. -/
def Steps (G : σ → ι → Prop) (is : List ι) : Prop :=
  ∀ p x, p ++ [x] <+: is → G (run step s₀ p) x

/-- `P` holds at the start and after every step of the run on `is`. -/
def Always (P : σ → Prop) (is : List ι) : Prop := ∀ p, p <+: is → P (run step s₀ p)

variable {step s₀}

lemma steps_nil (G : σ → ι → Prop) : Steps step s₀ G [] := by
  intro p x h
  simp at h

lemma steps_snoc {G : σ → ι → Prop} {p : List ι} {x : ι} :
    Steps step s₀ G (p ++ [x]) ↔ Steps step s₀ G p ∧ G (run step s₀ p) x := by
  constructor
  · intro h
    exact ⟨fun q y hq => h q y (hq.trans (List.prefix_append p [x])), h p x List.prefix_rfl⟩
  · rintro ⟨hp, hx⟩ q y hq
    rcases List.prefix_concat_iff.mp hq with h | h
    · obtain ⟨rfl, h2⟩ := List.append_inj' h rfl
      obtain rfl : y = x := by simpa using h2
      exact hx
    · exact hp q y h

lemma steps_cons {G : σ → ι → Prop} {x : ι} {is : List ι} :
    Steps step s₀ G (x :: is) ↔ G s₀ x ∧ Steps step (step s₀ x) G is := by
  constructor
  · intro h
    refine ⟨h [] x (List.cons_prefix_cons.mpr ⟨rfl, List.nil_prefix⟩), fun p y hp => ?_⟩
    exact h (x :: p) y (List.cons_prefix_cons.mpr ⟨rfl, hp⟩)
  · rintro ⟨hx, h⟩ p y hp
    cases p with
    | nil =>
        obtain ⟨rfl, -⟩ := List.cons_prefix_cons.mp hp
        exact hx
    | cons z p =>
        obtain ⟨rfl, htl⟩ := List.cons_prefix_cons.mp hp
        exact h p y htl

lemma steps_append {G : σ → ι → Prop} {p q : List ι} :
    Steps step s₀ G (p ++ q) ↔ Steps step s₀ G p ∧ Steps step (run step s₀ p) G q := by
  induction p generalizing s₀ with
  | nil => exact ⟨fun h => ⟨steps_nil G, h⟩, fun h => h.2⟩
  | cons x p ih =>
      rw [List.cons_append, steps_cons, steps_cons, ih, run_cons, and_assoc]

instance decidableSteps (G : σ → ι → Prop) [∀ s x, Decidable (G s x)] :
    ∀ (s₀ : σ) (is : List ι), Decidable (Steps step s₀ G is)
  | _, [] => isTrue (steps_nil G)
  | s₀, x :: is =>
    have := decidableSteps G (step s₀ x) is
    decidable_of_iff _ steps_cons.symm

lemma Steps.initial {G : σ → ι → Prop} {p is : List ι} (h : Steps step s₀ G is) (hp : p <+: is) :
    Steps step s₀ G p :=
  fun q x hq => h q x (hq.trans hp)

instance decidableAlways (P : σ → Prop) [DecidablePred P] (is : List ι) :
    Decidable (Always step s₀ P is) :=
  decidable_of_iff (∀ p ∈ is.inits, P (run step s₀ p))
    (forall_congr' fun p => by rw [List.mem_inits])

lemma Always.initial {P : σ → Prop} {p is : List ι} (h : Always step s₀ P is) (hp : p <+: is) :
    Always step s₀ P p :=
  fun q hq => h q (hq.trans hp)

/-- **The invariant rule, guarded.** A fact true at the start and kept by every step that
meets `G` holds at the end of a run whose steps all meet `G`. -/
theorem inv_of_steps {P : σ → Prop} {G : σ → ι → Prop} (h0 : P s₀)
    (hstep : ∀ s x, P s → G s x → P (step s x)) {is : List ι} (h : Steps step s₀ G is) :
    P (run step s₀ is) := by
  induction is using List.reverseRecOn with
  | nil => exact h0
  | append_singleton p x ih =>
      obtain ⟨hp, hx⟩ := steps_snoc.mp h
      rw [run_snoc]
      exact hstep _ _ (ih hp) hx

/-- **The invariant rule.** -/
theorem inv_run {P : σ → Prop} (h0 : P s₀) (hstep : ∀ s x, P s → P (step s x)) (is : List ι) :
    P (run step s₀ is) :=
  inv_of_steps (G := fun _ _ => True) h0 (fun s x hs _ => hstep s x hs) fun _ _ _ => trivial

/-- **Exactness, guarded.** On inputs that meet `H` step by step: when, in every state that
satisfies the invariant `I`, a step ends in `P` exactly if it meets `G`, then `P` holds after
every step of a run exactly if every step of the run meets `G`. -/
theorem always_iff_steps_of {I P : σ → Prop} {H G : σ → ι → Prop} {is : List ι}
    (hH : Steps step s₀ H is) (hI : ∀ p, p <+: is → I (run step s₀ p)) (h0 : P s₀)
    (hstep : ∀ s x, I s → H s x → P s → (P (step s x) ↔ G s x)) :
    Always step s₀ P is ↔ Steps step s₀ G is := by
  constructor
  · intro h p x hp
    have hpre := (List.prefix_append p [x]).trans hp
    have h1 := h p hpre
    have h2 := h (p ++ [x]) hp
    rw [run_snoc] at h2
    exact (hstep _ x (hI p hpre) (hH p x hp) h1).mp h2
  · intro h p hp
    have hsteps := h.initial hp
    have hguard := hH.initial hp
    have hinv := fun q hq => hI q (List.IsPrefix.trans hq hp)
    clear hp h hH hI
    induction p using List.reverseRecOn with
    | nil => exact h0
    | append_singleton p x ih =>
        obtain ⟨hp, hx⟩ := steps_snoc.mp hsteps
        obtain ⟨hgp, hgx⟩ := steps_snoc.mp hguard
        have hpre := List.prefix_append p [x]
        rw [run_snoc]
        exact (hstep _ x (hinv p hpre) hgx (ih hp hgp fun q hq => hinv q (hq.trans hpre))).mpr hx

/-- **Exactness.** -/
theorem always_iff_steps {I P : σ → Prop} {G : σ → ι → Prop} (hI : ∀ p, I (run step s₀ p))
    (h0 : P s₀) (hstep : ∀ s x, I s → P s → (P (step s x) ↔ G s x)) (is : List ι) :
    Always step s₀ P is ↔ Steps step s₀ G is :=
  always_iff_steps_of (H := fun _ _ => True) (fun _ _ _ => trivial) (fun p _ => hI p) h0
    fun s x hs _ => hstep s x hs

/-- A fact that every step needs of its start held at every prefix of a run that ends in
it. -/
lemma always_of_last {P : σ → Prop} (hback : ∀ s x, P (step s x) → P s) {is : List ι}
    (h : P (run step s₀ is)) : Always step s₀ P is := by
  induction is using List.reverseRecOn with
  | nil =>
      intro p hp
      rw [List.prefix_nil.mp hp]
      exact h
  | append_singleton is x ih =>
      intro p hp
      rcases List.prefix_concat_iff.mp hp with rfl | hp
      · exact h
      · rw [run_snoc] at h
        exact ih (hback _ x h) p hp

/-- The number of steps of the run on `is` from `s` that are taken from a state and on an
input that meet `G`. -/
def tally (step : σ → ι → σ) (G : σ → ι → Prop) [∀ s x, Decidable (G s x)] : σ → List ι → ℕ
  | _, [] => 0
  | s, x :: is => (if G s x then 1 else 0) + tally step G (step s x) is

lemma tally_snoc (G : σ → ι → Prop) [∀ s x, Decidable (G s x)] (s : σ) (p : List ι) (x : ι) :
    tally step G s (p ++ [x]) = tally step G s p + if G (run step s p) x then 1 else 0 := by
  induction p generalizing s with
  | nil => exact Nat.add_comm _ _
  | cons y p ih =>
      change _ + tally step G (step s y) (p ++ [x]) = _ + tally step G (step s y) p + _
      rw [ih (step s y), Nat.add_assoc]
      rfl

end Steps

section Simulation

variable {stepA : σ → ι → σ} {stepB : τ → ι → τ} {a₀ : σ} {b₀ : τ}

/-- **The two-run rule, guarded.** Two machines that start related and keep the relation on
every input where both steps meet their guards end related. -/
theorem sim_of_steps {R : σ → τ → Prop} {G : σ → ι → Prop} {H : τ → ι → Prop} (h0 : R a₀ b₀)
    (hstep : ∀ a b x, R a b → G a x → H b x → R (stepA a x) (stepB b x)) {is : List ι}
    (hA : Steps stepA a₀ G is) (hB : Steps stepB b₀ H is) :
    R (run stepA a₀ is) (run stepB b₀ is) := by
  induction is using List.reverseRecOn with
  | nil => exact h0
  | append_singleton p x ih =>
      obtain ⟨hpA, hxA⟩ := steps_snoc.mp hA
      obtain ⟨hpB, hxB⟩ := steps_snoc.mp hB
      rw [run_snoc, run_snoc]
      exact hstep _ _ x (ih hpA hpB) hxA hxB

/-- What stands on the right of two lists side by side has its counterpart on the left. -/
lemma forall₂_mem_right {α β : Type*} {R : α → β → Prop} {l : List α} {m : List β}
    (h : List.Forall₂ R l m) {b : β} (hb : b ∈ m) : ∃ a ∈ l, R a b := by
  induction h with
  | nil => simp at hb
  | cons hr _ ih =>
      rcases List.mem_cons.mp hb with rfl | hb
      · exact ⟨_, List.mem_cons_self, hr⟩
      · obtain ⟨a, ha, hab⟩ := ih hb
        exact ⟨a, List.mem_cons_of_mem _ ha, hab⟩

end Simulation

end TcpVisr.Lib.Runs
