import Mathlib.Tactic

/-!
Text set on a screen, a character a cell.

Setting a text changes the cells it takes and no others. How many it takes is a matter of
digits: a decimal number has no more than `k` of them exactly below `10 ^ k`.
-/

namespace TcpVisr.Lib.Text

/-- The characters of a screen, by column and row. -/
abbrev Screen : Type := ℕ → ℕ → Char

/-- Sets `s` from the cell `x` of the row `y` rightwards. -/
def Screen.setString (screen : Screen) (x y : ℕ) (s : String) : Screen := fun col row =>
  if row = y ∧ x ≤ col then s.toList[col - x]?.getD (screen col row) else screen col row

/-- `s` right-aligned in `k` cells, filled with `c`. -/
def padLeft (k : ℕ) (c : Char) (s : String) : String := String.ofList (s.toList.leftpad k c)

/-! ### What a text changes -/

variable {x y col row : ℕ} {s : String}

lemma setString_outside (screen : Screen) (h : row ≠ y ∨ col < x ∨ x + s.length ≤ col) :
    screen.setString x y s col row = screen col row := by
  unfold Screen.setString
  split
  · rename_i hin
    have hlen : s.toList.length ≤ col - x := by
      rw [String.length_toList]
      omega
    rw [List.getElem?_eq_none hlen, Option.getD_none]
  · rfl

lemma setString_inside (screen : Screen) {i : ℕ} (hi : i < s.toList.length) :
    screen.setString x y s (x + i) y = s.toList[i] := by
  rw [Screen.setString, if_pos ⟨rfl, Nat.le_add_right x i⟩, Nat.add_sub_cancel_left,
    List.getElem?_eq_getElem hi, Option.getD_some]

/-- Whatever is on the screen, `draw` leaves the cells of `area` as they are. -/
def Spares (area : ℕ → ℕ → Prop) (draw : Screen → Screen) : Prop :=
  ∀ screen col row, area col row → draw screen col row = screen col row

variable {area : ℕ → ℕ → Prop} {f g : Screen → Screen}

lemma Spares.comp (hf : Spares area f) (hg : Spares area g) : Spares area (f ∘ g) :=
  fun screen col row h => (hf (g screen) col row h).trans (hg screen col row h)

/-- What spares the area cannot undo the damage done before. -/
lemma Spares.comp_iff (hf : Spares area f) : Spares area (f ∘ g) ↔ Spares area g := by
  refine ⟨fun hfg screen col row h => ?_, hf.comp⟩
  rw [← hfg screen col row h]
  exact (hf (g screen) col row h).symm

/-- Text spares an area exactly if no cell it takes is in it: on a screen full of some other
character one would show. -/
lemma spares_setString_iff :
    Spares area (fun screen => screen.setString x y s) ↔ ∀ i < s.length, ¬area (x + i) y := by
  constructor
  · intro hs i hi harea
    rw [← String.length_toList] at hi
    have : Nontrivial Char := ⟨'0', '1', by decide⟩
    obtain ⟨c, hc⟩ := exists_ne s.toList[i]
    have hshown := hs (fun _ _ => c) (x + i) y harea
    exact hc (hshown.symm.trans (setString_inside _ hi))
  · intro hs screen col row harea
    apply setString_outside
    by_contra hin
    apply hs (col - x) (by omega)
    rwa [show x + (col - x) = col by omega, show y = row by omega]

/-! ### How wide a text is -/

lemma length_padLeft (k : ℕ) (c : Char) (s : String) : (padLeft k c s).length = max k s.length := by
  rw [padLeft, String.length_ofList, List.length_leftpad, String.length_toList]

lemma length_padLeft_le_iff {k m : ℕ} (h : k ≤ m) (c : Char) (s : String) :
    (padLeft k c s).length ≤ m ↔ s.length ≤ m := by
  rw [length_padLeft]
  omega

lemma length_decimal_le_iff {k : ℕ} (hk : 0 < k) (n : ℕ) :
    (toString n).length ≤ k ↔ n < 10 ^ k :=
  Nat.length_repr_le_iff hk

/-- A number of at most `k` digits fills `k` cells when padded to them. -/
lemma length_padLeft_decimal {k n : ℕ} (hk : 0 < k) (h : n < 10 ^ k) (c : Char) :
    (padLeft k c (toString n)).length = k := by
  have hle := (length_decimal_le_iff hk n).mpr h
  rw [length_padLeft]
  omega

end TcpVisr.Lib.Text
