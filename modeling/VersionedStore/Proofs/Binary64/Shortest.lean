import VersionedStore.Binary64.Shortest
import VersionedStore.Proofs.Binary64.Rounding

/-!
# The shortest decimal reads back

Every grid point that is found for a magnitude lies where the quotients round to it, and seventeen
digits are enough for one to be found.

* `rounds_of_readsBack`: a grid point that reads back is a quotient that rounds to the magnitude;
* `readsBack_of_fine`: the nearest point of a grid that is fine enough reads back;
* `shortest_readsBack`: so the digits of the shortest decimal do, whichever grid they are of.
-/

namespace VersionedStore.Binary64

variable {m n d c p x y : Nat}

theorem pow_ten_pos (k : Nat) : 0 < Nat.pow 10 k := Nat.pow_pos (by decide)

theorem pow_ten_add (k l : Nat) : Nat.pow 10 (k + l) = Nat.pow 10 k * Nat.pow 10 l :=
  Nat.pow_add 10 k l

theorem mul_shiftLeft (a b k : Nat) : (a * b) <<< k = a * b <<< k := by
  rw [Nat.shiftLeft_eq, Nat.shiftLeft_eq, Nat.mul_assoc]

theorem le_shiftRight_iff {a x k : Nat} : a ≤ x >>> k ↔ a <<< k ≤ x := by
  rw [Nat.shiftRight_eq_div_pow, Nat.shiftLeft_eq, Nat.le_div_iff_mul_le (Nat.two_pow_pos k)]

theorem readsBack_iff : readsBack m x = true ↔
    (units (m - 1) + units m) * Nat.pow 10 gridBase ≤ x ∧
      x ≤ (units m + units (m + 1)) * Nat.pow 10 gridBase ∧
      ((units (m - 1) + units m) * Nat.pow 10 gridBase = x → m % 2 = 0) ∧
      (x = (units m + units (m + 1)) * Nat.pow 10 gridBase → m % 2 = 0) := by
  unfold readsBack
  by_cases heven : m % 2 = 0
  · simp [heven]
  · simp only [heven, if_false, Bool.and_eq_true, decide_eq_true_eq, imp_false]
    omega

/-- **A point that reads back** is a quotient that rounds to the magnitude. -/
theorem rounds_of_readsBack (h : readsBack m x = true) (hd : 0 < d)
    (hvalue : x * d = 2 * n * Nat.pow 10 gridBase) : Rounds m n d := by
  have hpos := pow_ten_pos gridBase
  obtain ⟨hlow, hhigh, heven, heven'⟩ := readsBack_iff.mp h
  generalize Nat.pow 10 gridBase = g at *
  -- the bounds hold for the quotient as they hold for the point
  have hscale (l : Nat) : l * d * g = l * g * d := by ring
  have hle {l : Nat} (hl : l * g ≤ x) : l * d ≤ 2 * n := by
    refine Nat.le_of_mul_le_mul_right ?_ hpos
    rw [← hvalue, hscale]
    exact Nat.mul_le_mul_right d hl
  have hge {l : Nat} (hl : x ≤ l * g) : 2 * n ≤ l * d := by
    refine Nat.le_of_mul_le_mul_right ?_ hpos
    rw [← hvalue, hscale]
    exact Nat.mul_le_mul_right d hl
  have heq {l : Nat} (hl : l * d = 2 * n) : l * g = x := by
    refine Nat.eq_of_mul_eq_mul_right hd ?_
    rw [hvalue, ← hscale, hl]
  exact ⟨hle hlow, hge hhigh, fun htie => heven (heq htie), fun htie => heven' (heq htie.symm).symm⟩

/-! ### Fine grids -/

theorem units_le_gap (hm : 0 < m) : units m + 2 ^ 53 * units (m - 1) ≤ 2 ^ 53 * units m ∧
    units m + 2 ^ 53 * units m ≤ 2 ^ 53 * units (m + 1) := by
  obtain ⟨s, r, rfl, hs, hr⟩ := exists_scaled m
  have hpow := Nat.two_pow_pos s
  have hvalue : units (s * binade + r) = r * 2 ^ s := units_scaled hs (Nat.le_of_lt hr)
  have htwice : 2 * binade = 2 ^ 53 := by decide
  have hmost : r * 2 ^ s ≤ 2 ^ 53 * 2 ^ s := Nat.mul_le_mul_right _ (htwice ▸ Nat.le_of_lt hr)
  rw [hvalue]
  constructor
  · rcases units_below hs (Nat.le_of_lt hr) with rfl | ⟨-, rfl, heq⟩ | heq
    · obtain rfl : s = 0 := hs.resolve_right (by decide)
      exact absurd hm (by decide)
    · have hfirst : 2 * (binade * 2 ^ s) = 2 ^ 53 * 2 ^ s := by
        rw [← Nat.mul_assoc, htwice]
      clear hs hr hvalue hmost htwice
      generalize binade * 2 ^ s = value at *
      generalize 2 ^ s = gap at *
      omega
    · omega
  · rcases units_above hs (Nat.le_of_lt hr) with ⟨rfl, -⟩ | heq
    · exact absurd hr (Nat.lt_irrefl _)
    · omega

/-- **The nearest point of a fine grid reads back.** -/
theorem readsBack_of_fine (hm : 0 < m) {step : Nat} (hstep : 0 < step)
    (hfine : 10 ^ 16 * step ≤ scaledValue m) :
    readsBack m (roundDiv (scaledValue m) step * step) = true := by
  obtain ⟨hnear, hnear'⟩ := roundDiv_near hstep (scaledValue m)
  obtain ⟨hlow, hhigh⟩ := units_le_gap hm
  have hlow' := Nat.mul_le_mul_right (Nat.pow 10 gridBase) hlow
  have hhigh' := Nat.mul_le_mul_right (Nat.pow 10 gridBase) hhigh
  rw [readsBack_iff]
  unfold scaledValue at *
  generalize roundDiv _ step * step = x at *
  simp only [Nat.add_mul, Nat.mul_assoc] at *
  generalize Nat.pow 10 gridBase = g at *
  generalize units m * g = value at *
  generalize units (m - 1) * g = below at *
  generalize units (m + 1) * g = above at *
  omega

theorem gridStep_pos (p : Nat) : 0 < gridStep p := Nat.shiftLeft_pos_iff.mpr (pow_ten_pos p)

theorem gridStep_add (p k : Nat) : gridStep (k + p) = Nat.pow 10 k * gridStep p := by
  unfold gridStep
  rw [pow_ten_add, mul_shiftLeft]

theorem leadingGrid_spec (hm : 0 < m) :
    16 ≤ leadingGrid m ∧ gridStep (leadingGrid m) ≤ scaledValue m := by
  have hunits : 1 ≤ units m := by
    have hlt := units_lt_units hm
    omega
  have hbase : Nat.pow 10 16 <<< 1074 ≤ Nat.pow 10 gridBase := by decide +kernel
  have hleast : Nat.pow 10 16 ≤ (units m * Nat.pow 10 gridBase) >>> 1074 :=
    le_shiftRight_iff.mpr (Nat.le_trans hbase (Nat.le_mul_of_pos_left _ hunits))
  have hlength {k n : Nat} (hk : 0 < k) : Nat.pow 10 k ≤ n ↔ k < (Nat.toDigits 10 n).length := by
    rw [← Nat.not_le, Nat.length_toDigits_le_iff (by decide) hk, Nat.not_lt]
    rfl
  unfold leadingGrid scaledValue gridStep
  have hlong := (hlength (by decide)).mp hleast
  have htop : Nat.pow 10 ((Nat.toDigits 10 ((units m * Nat.pow 10 gridBase) >>> 1074)).length - 1) ≤
      (units m * Nat.pow 10 gridBase) >>> 1074 := (hlength (by omega)).mpr (by omega)
  refine ⟨by omega, ?_⟩
  rw [Nat.shiftLeft_succ, Nat.mul_assoc]
  exact Nat.mul_le_mul_left 2 (le_shiftRight_iff.mp htop)

/-! ### The search for a grid -/

theorem readsBack_of_onGrid? (h : onGrid? m p = some c) : readsBack m (c * gridStep p) = true := by
  unfold onGrid? at h
  dsimp only at h
  split at h
  · rename_i hbelow habove
    obtain rfl := Option.some.inj h
    unfold roundDiv
    split
    · exact hbelow
    · exact habove
  · rename_i hbelow habove
    obtain rfl := Option.some.inj h
    exact hbelow
  · rename_i hbelow habove
    obtain rfl := Option.some.inj h
    exact habove
  · cases h

/-- **The shortest decimal reads back.** -/
theorem shortest_readsBack (hm : 0 < m) :
    readsBack m ((shortest m).1 * gridStep (shortest m).2) = true := by
  unfold shortest
  dsimp only
  rcases hfound : (List.range 17).findSome? fun n =>
      (onGrid? m (leadingGrid m - n)).map (·, leadingGrid m - n) with _ | ⟨c, p⟩
  · -- the grid of seventeen digits is fine enough
    obtain ⟨htop, hlead⟩ := leadingGrid_spec hm
    rw [Option.getD_none]
    dsimp only
    refine readsBack_of_fine hm (gridStep_pos (leadingGrid m - 16)) ?_
    obtain ⟨k, hk⟩ := Nat.exists_eq_add_of_le htop
    have hfine : leadingGrid m - 16 = k := by omega
    rw [hk, gridStep_add] at hlead
    rw [hfine]
    exact hlead
  · obtain ⟨n, -, hn⟩ := List.exists_of_findSome?_eq_some hfound
    obtain ⟨c', hc, heq⟩ := Option.map_eq_some_iff.mp hn
    obtain ⟨rfl, rfl⟩ := Prod.mk.inj heq
    exact readsBack_of_onGrid? hc

theorem shortest_pos (hm : 0 < m) : 0 < (shortest m).1 := by
  have hread := (readsBack_iff.mp (shortest_readsBack hm)).1
  have hunits := units_lt_units hm
  have hlow : 0 < (units (m - 1) + units m) * Nat.pow 10 gridBase :=
    Nat.mul_pos (by omega) (pow_ten_pos gridBase)
  exact Nat.pos_of_mul_pos_right (Nat.lt_of_lt_of_le hlow hread)

end VersionedStore.Binary64
