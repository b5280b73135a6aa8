import TcpVisr.Names

/-!
What a table of names holds after a stream of observations.

The first addresses to appear are held, up to the cap, and each is named by the newest of its
observations; an address that appears later is refused, and every observation of it counted.
-/

namespace TcpVisr

namespace NameTable

variable {obs obs' : List NameObservation} {o : NameObservation} {ip : IpAddr} {t : NameTable}

/-- The table after `obs`. -/
def after (obs : List NameObservation) : NameTable := obs.foldl NameTable.observe {}

/-- The distinct addresses of `obs`, in the order they first appear. -/
def appearing (obs : List NameObservation) : List IpAddr :=
  (obs.map NameObservation.ip).eraseDups

/-- The addresses a table holds after `obs`. -/
def held (obs : List NameObservation) : List IpAddr := (appearing obs).take nameTableCap

/-- `o` is the newest observation of `l`, the last of its time. -/
def Newest (l : List NameObservation) (o : NameObservation) : Prop :=
  ∃ before after, l = before ++ o :: after ∧ (∀ x ∈ before, x.ts.ns ≤ o.ts.ns) ∧
    ∀ x ∈ after, x.ts.ns < o.ts.ns

/-- The observations of an address. -/
def about (ip : IpAddr) (obs : List NameObservation) : List NameObservation :=
  obs.filter fun o => o.ip = ip

/-! ### The addresses -/

lemma after_snoc (obs : List NameObservation) (o : NameObservation) :
    after (obs ++ [o]) = (after obs).observe o := by
  rw [after, List.foldl_append, List.foldl_cons, List.foldl_nil, after]

lemma mem_appearing : ip ∈ appearing obs ↔ ∃ o ∈ obs, o.ip = ip := by
  rw [appearing, List.mem_eraseDups, List.mem_map]

lemma eraseDups_snoc {α : Type} [DecidableEq α] (l : List α) (x : α) :
    (l ++ [x]).eraseDups = if x ∈ l then l.eraseDups else l.eraseDups ++ [x] := by
  rw [List.eraseDups_append]
  by_cases h : x ∈ l <;> simp [List.removeAll, List.eraseDups_cons, h]

lemma appearing_snoc (obs : List NameObservation) (o : NameObservation) :
    appearing (obs ++ [o]) =
      if o.ip ∈ appearing obs then appearing obs else appearing obs ++ [o.ip] := by
  have hmem : o.ip ∈ appearing obs ↔ o.ip ∈ obs.map NameObservation.ip := List.mem_eraseDups
  simp only [hmem]
  unfold appearing
  rw [List.map_append, List.map_singleton, eraseDups_snoc]

lemma nodup_appearing (obs : List NameObservation) : (appearing obs).Nodup := by
  induction obs using List.reverseRecOn with
  | nil => exact List.nodup_nil
  | append_singleton obs o ih =>
      rw [appearing_snoc]
      split
      · exact ih
      · next h => exact List.concat_eq_append ▸ ih.concat h

lemma nodup_held (obs : List NameObservation) : (held obs).Nodup :=
  (nodup_appearing obs).sublist (List.take_sublist _ _)

lemma held_of_lt (h : (held obs).length < nameTableCap) : held obs = appearing obs := by
  have hlen : (appearing obs).length ≤ nameTableCap := by
    rw [held, List.length_take] at h
    omega
  rw [held, List.take_of_length_le hlen]

/-- A new address is held if there is room. -/
lemma held_snoc (obs : List NameObservation) (o : NameObservation) :
    held (obs ++ [o]) =
      if o.ip ∈ held obs ∨ nameTableCap ≤ (held obs).length then held obs
      else held obs ++ [o.ip] := by
  have hlen : (held obs).length = min nameTableCap (appearing obs).length := List.length_take
  by_cases hfull : nameTableCap ≤ (held obs).length
  · rw [if_pos (.inr hfull), held, appearing_snoc]
    split
    · rfl
    · exact List.take_append_of_le_length (by omega)
  · have heq := held_of_lt (not_le.mp hfull)
    rw [held, appearing_snoc, heq]
    rw [heq] at hfull
    split
    · next h => rw [if_pos (.inl h), List.take_of_length_le (by omega)]
    · next h =>
        rw [if_neg (not_or.mpr ⟨h, hfull⟩), List.take_of_length_le]
        rw [List.length_append, List.length_singleton]
        omega

/-! ### The names -/

/-- What a table holds of `obs`. -/
structure Holds (obs : List NameObservation) (t : NameTable) : Prop where
  keys : t.byIp.map Prod.fst = held obs
  newest : ∀ e ∈ t.byIp, ∃ o, Newest (about e.1 obs) o ∧ e.2 = (o.ts, o.name)
  dropped : t.dropped = obs.countP fun o => o.ip ∉ held obs

lemma about_snoc_ne (h : o.ip ≠ ip) (obs : List NameObservation) :
    about ip (obs ++ [o]) = about ip obs := by
  rw [about, List.filter_append, List.filter_cons_of_neg (by simpa using h), List.filter_nil,
    List.append_nil, about]

lemma about_snoc (obs : List NameObservation) (o : NameObservation) :
    about o.ip (obs ++ [o]) = about o.ip obs ++ [o] := by
  rw [about, List.filter_append, List.filter_cons_of_pos (by simp), List.filter_nil, about]

lemma Newest.le {l : List NameObservation} (h : Newest l o) {x : NameObservation} (hx : x ∈ l) :
    x.ts.ns ≤ o.ts.ns := by
  obtain ⟨before, after, rfl, hb, ha⟩ := h
  rcases List.mem_append.mp hx with hx | hx
  · exact hb x hx
  · rcases List.mem_cons.mp hx with rfl | hx
    · exact le_rfl
    · exact (ha x hx).le

/-- An observation no older than the rest is the newest. -/
lemma newest_snoc {l : List NameObservation} (h : ∀ x ∈ l, x.ts.ns ≤ o.ts.ns) :
    Newest (l ++ [o]) o :=
  ⟨l, [], rfl, h, by simp⟩

/-- An older one leaves the newest as it is. -/
lemma Newest.snoc {l : List NameObservation} {x : NameObservation} (h : Newest l o)
    (hx : x.ts.ns < o.ts.ns) : Newest (l ++ [x]) o := by
  obtain ⟨before, after, rfl, hb, ha⟩ := h
  refine ⟨before, after ++ [x], by simp, hb, fun y hy => ?_⟩
  rcases List.mem_append.mp hy with hy | hy
  · exact ha y hy
  · rwa [List.mem_singleton.mp hy]

lemma get_eq_some (hn : (t.byIp.map Prod.fst).Nodup) {slot : Nanos × HostName} :
    t.get ip = some slot ↔ (ip, slot) ∈ t.byIp := by
  constructor
  · intro h
    obtain ⟨e, he, rfl⟩ := Option.map_eq_some_iff.mp h
    have hip : e.1 = ip := by simpa using List.find?_some he
    rw [← hip]
    exact List.mem_of_find?_eq_some he
  · intro h
    obtain ⟨e, he⟩ : ∃ e, t.byIp.find? (fun e => e.1 = ip) = some e :=
      Option.isSome_iff_exists.mp (List.find?_isSome.mpr ⟨_, h, by simp⟩)
    have hip : e.1 = ip := by simpa using List.find?_some he
    have heq := List.inj_on_of_nodup_map hn (List.mem_of_find?_eq_some he) h hip
    rw [get, he, heq]
    rfl

lemma get_eq_none : t.get ip = none ↔ ip ∉ t.byIp.map Prod.fst := by
  rw [get, Option.map_eq_none_iff, List.find?_eq_none, List.mem_map, not_exists]
  refine forall_congr' fun e => ?_
  rw [not_and, decide_eq_true_eq]

lemma dropped_snoc (h : t.dropped = obs.countP fun o => o.ip ∉ held obs)
    (hsame : held (obs ++ [o]) = held obs) (n : ℕ)
    (hn : n = if o.ip ∈ held obs then 0 else 1) :
    t.dropped + n = (obs ++ [o]).countP fun x => x.ip ∉ held (obs ++ [o]) := by
  rw [hsame, List.countP_append, ← h, List.countP_singleton, hn]
  by_cases hip : o.ip ∈ held obs <;> simp [hip]

lemma Holds.nodup (h : Holds obs t) : (t.byIp.map Prod.fst).Nodup := h.keys ▸ nodup_held obs

lemma Holds.length (h : Holds obs t) : t.byIp.length = (held obs).length := by
  rw [← h.keys, List.length_map]

/-- What another address is held under does not change. -/
lemma Holds.newest_ne (h : Holds obs t) {e : IpAddr × Nanos × HostName} (he : e ∈ t.byIp)
    (hne : o.ip ≠ e.1) : ∃ x, Newest (about e.1 (obs ++ [o])) x ∧ e.2 = (x.ts, x.name) := by
  rw [about_snoc_ne hne]
  exact h.newest e he

/-- A held address, and an observation as new as the one it is named by. -/
lemma Holds.renew (h : Holds obs t) {slot : Nanos × HostName} (hslot : (o.ip, slot) ∈ t.byIp)
    (hle : slot.1.ns ≤ o.ts.ns) :
    Holds (obs ++ [o]) { t with
      byIp := t.byIp.map fun e => if e.1 = o.ip then (e.1, o.ts, o.name) else e } := by
  have hip : o.ip ∈ held obs := h.keys ▸ List.mem_map_of_mem hslot
  have hsame : held (obs ++ [o]) = held obs := by rw [held_snoc, if_pos (.inl hip)]
  obtain ⟨x, hx, hxs⟩ := h.newest _ hslot
  obtain rfl : slot = (x.ts, x.name) := hxs
  refine ⟨?_, fun e he => ?_, dropped_snoc h.dropped hsame 0 (by rw [if_pos hip])⟩
  · rw [hsame, ← h.keys, List.map_map]
    refine List.map_congr_left fun e _ => ?_
    dsimp only [Function.comp_apply]
    split <;> rfl
  · obtain ⟨e, he', rfl⟩ := List.mem_map.mp he
    split
    · next heq =>
        refine ⟨o, ?_, rfl⟩
        rw [heq, about_snoc]
        exact newest_snoc fun y hy => (hx.le hy).trans hle
    · next hne => exact h.newest_ne he' (Ne.symm hne)

/-- A held address, and an observation older than the one it is named by. -/
lemma Holds.keep (h : Holds obs t) {slot : Nanos × HostName} (hslot : (o.ip, slot) ∈ t.byIp)
    (hlt : o.ts.ns < slot.1.ns) : Holds (obs ++ [o]) t := by
  have hip : o.ip ∈ held obs := h.keys ▸ List.mem_map_of_mem hslot
  have hsame : held (obs ++ [o]) = held obs := by rw [held_snoc, if_pos (.inl hip)]
  obtain ⟨x, hx, hxs⟩ := h.newest _ hslot
  refine ⟨hsame ▸ h.keys, fun e he => ?_, dropped_snoc h.dropped hsame 0 (by rw [if_pos hip])⟩
  by_cases heq : o.ip = e.1
  · obtain rfl : e = (o.ip, slot) := List.inj_on_of_nodup_map h.nodup he hslot heq.symm
    obtain rfl : slot = (x.ts, x.name) := hxs
    rw [about_snoc]
    exact ⟨x, hx.snoc hlt, rfl⟩
  · exact h.newest_ne he heq

/-- A new address, and no room for it. -/
lemma Holds.refuse (h : Holds obs t) (hip : o.ip ∉ held obs)
    (hfull : nameTableCap ≤ t.byIp.length) :
    Holds (obs ++ [o]) { t with dropped := t.dropped + 1 } := by
  have hsame : held (obs ++ [o]) = held obs := by
    rw [held_snoc, if_pos (.inr (h.length ▸ hfull))]
  refine ⟨hsame ▸ h.keys, fun e he => h.newest_ne he fun heq => ?_,
    dropped_snoc h.dropped hsame 1 (by rw [if_neg hip])⟩
  exact hip (heq ▸ h.keys ▸ List.mem_map_of_mem he)

/-- A new address, and room for it. -/
lemma Holds.add (h : Holds obs t) (hip : o.ip ∉ held obs)
    (hroom : ¬nameTableCap ≤ t.byIp.length) :
    Holds (obs ++ [o]) { t with byIp := t.byIp ++ [(o.ip, o.ts, o.name)] } := by
  rw [h.length] at hroom
  have hnew : held (obs ++ [o]) = held obs ++ [o.ip] := by
    rw [held_snoc, if_neg (not_or.mpr ⟨hip, hroom⟩)]
  have hnone : ∀ x ∈ obs, x.ip ≠ o.ip := fun x hx heq =>
    hip (held_of_lt (not_le.mp hroom) ▸ mem_appearing.mpr ⟨x, hx, heq⟩)
  refine ⟨?_, fun e he => ?_, ?_⟩
  · rw [hnew, List.map_append, h.keys]
    rfl
  · rcases List.mem_append.mp he with he | he
    · exact h.newest_ne he fun heq => hip (heq ▸ h.keys ▸ List.mem_map_of_mem he)
    · rw [List.mem_singleton.mp he]
      have hnil : about o.ip obs = [] :=
        List.filter_eq_nil_iff.mpr fun x hx heq => hnone x hx (of_decide_eq_true heq)
      refine ⟨o, ?_, rfl⟩
      rw [about_snoc, hnil]
      exact newest_snoc (by simp)
  · rw [hnew, List.countP_append, List.countP_singleton, h.dropped]
    simp only [List.mem_append, List.mem_singleton, or_true, not_true_eq_false,
      decide_false, Bool.false_eq_true, if_false, Nat.add_zero]
    refine List.countP_congr fun x hx => ?_
    simp [hnone x hx]

/-- One more observation. -/
lemma Holds.observe (h : Holds obs t) (o : NameObservation) :
    Holds (obs ++ [o]) (t.observe o) := by
  unfold NameTable.observe
  cases hget : t.get o.ip with
  | some slot =>
      have hslot := (get_eq_some h.nodup).mp hget
      dsimp only
      split
      · next hle => exact h.renew hslot hle
      · next hlt => exact h.keep hslot (not_le.mp hlt)
  | none =>
      have hip : o.ip ∉ held obs := h.keys ▸ get_eq_none.mp hget
      dsimp only
      split
      · next hfull => exact h.refuse hip hfull
      · next hroom => exact h.add hip hroom

/-- **What the table holds** after any stream of observations. -/
theorem holds_after (obs : List NameObservation) : Holds obs (after obs) := by
  induction obs using List.reverseRecOn with
  | nil => exact ⟨rfl, by simp [after], rfl⟩
  | append_singleton obs o ih =>
      rw [after_snoc]
      exact ih.observe o

/-! ### The refused -/

/-- The addresses that appear past the cap. -/
def refused (obs : List NameObservation) : List IpAddr := (appearing obs).drop nameTableCap

/-- A new address that finds the table full. -/
def Refuses (t : NameTable) (o : NameObservation) : Prop :=
  t.get o.ip = none ∧ nameTableCap ≤ t.len

lemma mem_refused_iff : ip ∈ refused obs ↔ ip ∈ appearing obs ∧ ip ∉ held obs := by
  have hsplit : held obs ++ refused obs = appearing obs := List.take_append_drop _ _
  have hn := nodup_appearing obs
  rw [← hsplit] at hn ⊢
  rw [List.mem_append]
  constructor
  · exact fun h => ⟨.inr h, fun h' => (List.nodup_append'.mp hn).2.2 h' h⟩
  · exact fun ⟨h, hnot⟩ => h.resolve_left hnot

lemma held_grows (p s : List NameObservation) : held p <+: held (p ++ s) := by
  induction s using List.reverseRecOn with
  | nil => rw [List.append_nil]
  | append_singleton s o ih =>
      rw [← List.append_assoc, held_snoc]
      split
      · exact ih
      · exact ih.trans (List.prefix_append _ _)

lemma held_le_cap (obs : List NameObservation) : (held obs).length ≤ nameTableCap :=
  (List.length_take_le _ _)

lemma len_after (obs : List NameObservation) : (after obs).len = (held obs).length :=
  (holds_after obs).length

lemma get_after_none : (after obs).get ip = none ↔ ip ∉ held obs := by
  rw [get_eq_none, (holds_after obs).keys]

/-- The refused addresses are those the table has refused. -/
lemma mem_refused : ip ∈ refused obs ↔
    ∃ p o, p ++ [o] <+: obs ∧ Refuses (after p) o ∧ o.ip = ip := by
  rw [mem_refused_iff]
  constructor
  · rintro ⟨hap, hnot⟩
    obtain ⟨o, ho, rfl⟩ := mem_appearing.mp hap
    obtain ⟨p, s, rfl⟩ := List.append_of_mem ho
    have hpre : p ++ [o] <+: p ++ o :: s := ⟨s, by simp⟩
    have hp : o.ip ∉ held p := fun h => hnot ((held_grows p (o :: s)).subset h)
    refine ⟨p, o, hpre, ⟨get_after_none.mpr hp, ?_⟩, rfl⟩
    by_contra hroom
    rw [len_after] at hroom
    have hnew : held (p ++ [o]) = held p ++ [o.ip] := by
      rw [held_snoc, if_neg (not_or.mpr ⟨hp, hroom⟩)]
    have hsub := held_grows (p ++ [o]) s
    rw [hnew, List.append_assoc, List.singleton_append] at hsub
    exact hnot (hsub.subset (by simp))
  · rintro ⟨p, o, ⟨s, rfl⟩, ⟨hget, hfull⟩, rfl⟩
    rw [len_after] at hfull
    have hheld : held p = held (p ++ ([o] ++ s)) :=
      (held_grows p ([o] ++ s)).eq_of_length_le ((held_le_cap _).trans hfull)
    rw [List.append_assoc, ← hheld]
    exact ⟨mem_appearing.mpr ⟨o, by simp, rfl⟩, get_after_none.mp hget⟩

/-! ### The order of the observations -/

lemma Newest.mem {l : List NameObservation} (h : Newest l o) : o ∈ l := by
  obtain ⟨before, after, rfl, -, -⟩ := h
  simp

lemma get_after_some (h : ip ∈ held obs) :
    ∃ o, Newest (about ip obs) o ∧ (after obs).get ip = some (o.ts, o.name) := by
  rw [← (holds_after obs).keys] at h
  obtain ⟨⟨ip, slot⟩, he, rfl⟩ := List.mem_map.mp h
  obtain ⟨o, ho, rfl⟩ := (holds_after obs).newest _ he
  exact ⟨o, ho, (get_eq_some (holds_after obs).nodup).mpr he⟩

/-- Observations of one address and one time agree on the name. -/
def Consistent (obs : List NameObservation) : Prop :=
  ∀ o ∈ obs, ∀ o' ∈ obs, o.ip = o'.ip → o.ts = o'.ts → o.name = o'.name

lemma mem_about {x : NameObservation} : x ∈ about ip obs ↔ x ∈ obs ∧ x.ip = ip := by
  rw [about, List.mem_filter, decide_eq_true_eq]

lemma mem_appearing_perm (h : obs'.Perm obs) : ip ∈ appearing obs' ↔ ip ∈ appearing obs := by
  rw [mem_appearing, mem_appearing]
  simp only [h.mem_iff]

lemma length_appearing_perm (h : obs'.Perm obs) :
    (appearing obs').length = (appearing obs).length :=
  ((List.perm_ext_iff_of_nodup (nodup_appearing obs') (nodup_appearing obs)).mpr
    fun _ => mem_appearing_perm h).length_eq

lemma held_eq (h : (appearing obs).length ≤ nameTableCap) : held obs = appearing obs :=
  List.take_of_length_le h

/-- Below the cap the order does not matter. -/
lemma get_perm (h : obs'.Perm obs) (hcap : (appearing obs).length ≤ nameTableCap)
    (hc : Consistent obs) (ip : IpAddr) : (after obs').get ip = (after obs).get ip := by
  have hcap' : (appearing obs').length ≤ nameTableCap := length_appearing_perm h ▸ hcap
  have hheld : ip ∈ held obs' ↔ ip ∈ held obs := by
    rw [held_eq hcap, held_eq hcap', mem_appearing_perm h]
  by_cases hip : ip ∈ held obs
  · obtain ⟨o, ho, hget⟩ := get_after_some hip
    obtain ⟨o', ho', hget'⟩ := get_after_some (hheld.mpr hip)
    have hmem (x : NameObservation) : x ∈ about ip obs' ↔ x ∈ about ip obs := by
      rw [mem_about, mem_about, h.mem_iff]
    have hts : o'.ts = o.ts := by
      ext
      exact le_antisymm (ho.le ((hmem o').mp ho'.mem)) (ho'.le ((hmem o).mpr ho.mem))
    obtain ⟨hin, hoip⟩ := mem_about.mp ho.mem
    obtain ⟨hin', hoip'⟩ := mem_about.mp ((hmem o').mp ho'.mem)
    rw [hget, hget', hts, hc o' hin' o hin (hoip'.trans hoip.symm) hts]
  · rw [get_after_none.mpr hip, get_after_none.mpr (mt hheld.mp hip)]

/-- **The names.** The first addresses up to the cap are held, each under its newest name; the
others are refused, with every observation of them counted. Below the cap, and with one name
for each address and time, the order of the observations does not matter. -/
theorem names_held :
    (∀ obs, (after obs).byIp.map Prod.fst = held obs ∧
      (∀ ip ∈ held obs, ∃ o, Newest (about ip obs) o ∧ (after obs).resolve ip = some o.name) ∧
      (∀ ip ∉ held obs, (after obs).resolve ip = none) ∧
      (∀ ip, ip ∈ refused obs ↔ ∃ p o, p ++ [o] <+: obs ∧ Refuses (after p) o ∧ o.ip = ip) ∧
      (after obs).len + (refused obs).length = (appearing obs).length ∧
      (after obs).dropped = obs.countP fun o => o.ip ∈ refused obs) ∧
    ∀ obs obs', obs'.Perm obs → (appearing obs).length ≤ nameTableCap → Consistent obs →
      (∀ ip, (after obs').get ip = (after obs).get ip) ∧ (after obs').len = (after obs).len ∧
        (after obs').dropped = (after obs).dropped := by
  have hdropped (obs : List NameObservation) :
      (after obs).dropped = obs.countP fun o => o.ip ∈ refused obs := by
    rw [(holds_after obs).dropped]
    refine List.countP_congr fun o ho => ?_
    rw [decide_eq_true_eq, decide_eq_true_eq, mem_refused_iff]
    exact ⟨fun h => ⟨mem_appearing.mpr ⟨o, ho, rfl⟩, h⟩, fun h => h.2⟩
  refine ⟨fun obs => ⟨(holds_after obs).keys, fun ip hip => ?_, fun ip hip => ?_,
    fun ip => mem_refused, ?_, hdropped obs⟩, fun obs obs' h hcap hc =>
      ⟨get_perm h hcap hc, ?_, ?_⟩⟩
  · obtain ⟨o, ho, hget⟩ := get_after_some hip
    exact ⟨o, ho, by rw [resolve, hget]; rfl⟩
  · rw [resolve, get_after_none.mpr hip]
    rfl
  · rw [len_after, ← List.length_append, held, refused, List.take_append_drop]
  · have hcap' : (appearing obs').length ≤ nameTableCap := length_appearing_perm h ▸ hcap
    rw [len_after, len_after, held_eq hcap, held_eq hcap', length_appearing_perm h]
  · have hnone {l : List NameObservation} (hl : (appearing l).length ≤ nameTableCap) :
        (after l).dropped = 0 := by
      rw [hdropped, refused, List.drop_eq_nil_of_le hl]
      simp
    rw [hnone hcap, hnone (length_appearing_perm h ▸ hcap)]

def hostA : HostName := ⟨['a'], by decide, by decide, by decide⟩
def hostB : HostName := ⟨['b'], by decide, by decide, by decide⟩

/-- Answers for two addresses, the newer one for the first ahead of the older. -/
def answers : List NameObservation :=
  [⟨.sat 2, .v4 1, hostB⟩, ⟨.sat 1, .v4 2, hostA⟩, ⟨.sat 1, .v4 1, hostA⟩]

lemma consistent_answers : Consistent answers := by
  unfold Consistent
  decide

/-- In either order the first address keeps its newer name. -/
theorem names_held_answers :
    (∀ ip, (after answers.reverse).get ip = (after answers).get ip) ∧
      (after answers).resolve (.v4 1) = some hostB :=
  ⟨(names_held.2 answers answers.reverse (List.reverse_perm _) (by decide)
    consistent_answers).1, by decide⟩

end NameTable

end TcpVisr
