import Mathlib.Tactic.Ring
import VersionedStore.Binary64

/-!
# Rounding to a magnitude

A quotient rounds to the magnitude whose value is nearest, a half to the even one.  The quotients
that round to a magnitude lie between the half-way points to its neighbours, so no two magnitudes
share one.

* `units_scaled`: magnitudes of one exponent lie evenly; `units_lt_units`: greater magnitudes have
  greater values;
* `Rounds`: a quotient lies where it rounds to a magnitude; `Rounds.unique`: to one only;
* `rounds_nearest`, `nearest_of_rounds`: the nearest magnitude is the one that a quotient rounds to.
-/

namespace VersionedStore.Binary64

variable {m m' n d s r : Nat}

/-! ### Values of magnitudes -/

/-- **Magnitudes of one exponent lie evenly,** the first one of the next exponent among them. -/
theorem units_scaled (h : s = 0 ∨ binade ≤ r) (hr : r ≤ 2 * binade) :
    units (s * binade + r) = r * 2 ^ s := by
  unfold units
  by_cases hsmall : r < binade
  · obtain rfl : s = 0 := by omega
    rw [Nat.zero_mul, Nat.zero_add, if_pos hsmall, Nat.pow_zero, Nat.mul_one]
  rw [if_neg (by omega), Nat.shiftLeft_eq]
  by_cases hlast : r = 2 * binade
  · subst hlast
    have hmod : (s * binade + 2 * binade) % binade = 0 := by unfold binade; omega
    have hdiv : (s * binade + 2 * binade) / binade - 1 = s + 1 := by unfold binade; omega
    rw [hmod, hdiv]
    ring
  · have hmod : (s * binade + r) % binade + binade = r := by unfold binade at *; omega
    have hdiv : (s * binade + r) / binade - 1 = s := by unfold binade at *; omega
    rw [hmod, hdiv]

theorem exists_scaled (m : Nat) :
    ∃ s r, m = s * binade + r ∧ (s = 0 ∨ binade ≤ r) ∧ r < 2 * binade := by
  by_cases hm : m < binade
  · exact ⟨0, m, by omega, .inl rfl, by omega⟩
  · refine ⟨m / binade - 1, m % binade + binade, ?_, ?_, ?_⟩ <;> unfold binade at * <;> omega

theorem units_lt_succ (m : Nat) : units m < units (m + 1) := by
  obtain ⟨s, r, rfl, hs, hr⟩ := exists_scaled m
  rw [units_scaled hs (Nat.le_of_lt hr), Nat.add_assoc, units_scaled (by omega) hr]
  exact Nat.mul_lt_mul_of_pos_right (Nat.lt_succ_self r) (Nat.two_pow_pos s)

/-- **Greater magnitudes have greater values.** -/
theorem units_lt_units (h : m < m') : units m < units m' := by
  induction h with
  | refl => exact units_lt_succ m
  | step _ ih => exact Nat.lt_trans ih (units_lt_succ _)

theorem units_le_units (h : m ≤ m') : units m ≤ units m' := by
  rcases Nat.lt_or_eq_of_le h with hlt | rfl
  · exact Nat.le_of_lt (units_lt_units hlt)
  · exact Nat.le_refl _

/-! ### Where quotients round to -/

/-- **A quotient rounds to a magnitude:** the quotient of `n` and `d`, in multiples of the least
positive number, lies between the half-way points to the neighbours.  Both of these round to the
magnitude if it is even, and neither if it is odd. -/
structure Rounds (m n d : Nat) : Prop where
  low_le : (units (m - 1) + units m) * d ≤ 2 * n
  le_high : 2 * n ≤ (units m + units (m + 1)) * d
  even_of_low : (units (m - 1) + units m) * d = 2 * n → m % 2 = 0
  even_of_high : 2 * n = (units m + units (m + 1)) * d → m % 2 = 0

theorem Rounds.le (h : Rounds m n d) (h' : Rounds m' n d) (hd : 0 < d) : m' ≤ m := by
  by_contra hlt
  have hnext : units (m + 1) ≤ units m' := units_le_units (by omega)
  have hprev : units m ≤ units (m' - 1) := units_le_units (by omega)
  have hsum : (units m + units (m + 1)) * d ≤ (units (m' - 1) + units m') * d :=
    Nat.mul_le_mul_right d (Nat.add_le_add hprev hnext)
  have hlow := h'.low_le
  have hhigh := h.le_high
  -- the quotient is the half-way point between neighbours, and both are even
  have heven := h.even_of_high (by omega)
  have heven' := h'.even_of_low (by omega)
  have hequal : units m + units (m + 1) = units (m' - 1) + units m' :=
    Nat.eq_of_mul_eq_mul_right hd (by omega)
  have hneighbour : m' = m + 1 := by
    by_contra hne
    have hfar : units (m + 1) < units m' := units_lt_units (by omega)
    omega
  omega

/-- **A quotient rounds to one magnitude only.** -/
theorem Rounds.unique (h : Rounds m n d) (h' : Rounds m' n d) (hd : 0 < d) : m = m' :=
  Nat.le_antisymm (h'.le h hd) (h.le h' hd)

/-! ### The nearest magnitude -/

theorem roundDiv_even (hd : 0 < d) (n : Nat)
    (h : 2 * n + d = 2 * (roundDiv n d * d) ∨ 2 * n = 2 * (roundDiv n d * d) + d) :
    roundDiv n d % 2 = 0 := by
  have hdiv := Nat.div_add_mod n d
  have hlt := Nat.mod_lt n hd
  rw [Nat.mul_comm] at hdiv
  unfold roundDiv at h ⊢
  split at h
  · rename_i hdown
    rw [if_pos hdown]
    omega
  · rename_i hup
    rw [if_neg hup]
    rw [Nat.add_mul] at h
    omega

theorem log2_scale {q : Nat} (hs : Nat.log2 q - 52 = s) :
    q < 2 * binade * 2 ^ s ∧ (s = 0 ∨ binade * 2 ^ s ≤ q) := by
  have hhigh := Nat.lt_log2_self (n := q)
  have hB : binade = 2 ^ 52 := by decide
  rw [hB]
  by_cases hsmall : Nat.log2 q < 53
  · have hpow : 2 ^ (Nat.log2 q + 1) ≤ 2 ^ 53 := Nat.pow_le_pow_right (by decide) (by omega)
    obtain rfl : s = 0 := by omega
    exact ⟨by omega, .inl rfl⟩
  · have hne : q ≠ 0 := by
      rintro rfl
      exact hsmall (by decide)
    have hlow := Nat.log2_self_le hne
    have hlog : Nat.log2 q = 52 + s := by omega
    rw [hlog] at hhigh hlow
    refine ⟨?_, .inr ?_⟩
    · calc q < 2 ^ (52 + s + 1) := hhigh
        _ = 2 * 2 ^ 52 * 2 ^ s := by ring
    · calc 2 ^ 52 * 2 ^ s = 2 ^ (52 + s) := by ring
        _ ≤ q := hlow

theorem roundDiv_scaled (hd : 0 < d) (hlow : s = 0 ∨ binade * (d * 2 ^ s) ≤ n)
    (hhigh : n < 2 * binade * (d * 2 ^ s)) :
    (s = 0 ∨ binade ≤ roundDiv n (d * 2 ^ s)) ∧ roundDiv n (d * 2 ^ s) ≤ 2 * binade := by
  have hpos : 0 < d * 2 ^ s := Nat.mul_pos hd (Nat.two_pow_pos s)
  have hle := roundDiv_le n (d * 2 ^ s)
  have hge := le_roundDiv n (d * 2 ^ s)
  have hlt := (Nat.div_lt_iff_lt_mul hpos).mpr hhigh
  refine ⟨hlow.imp_right fun h => ?_, by omega⟩
  have := (Nat.le_div_iff_mul_le hpos).mpr h
  omega

theorem units_below (hr : s = 0 ∨ binade ≤ r) (hr' : r ≤ 2 * binade) :
    r = 0 ∨ (s ≠ 0 ∧ r = binade ∧ 2 * units (s * binade + r - 1) + 2 ^ s = 2 * (r * 2 ^ s)) ∨
      units (s * binade + r - 1) + 2 ^ s = r * 2 ^ s := by
  rcases Nat.eq_zero_or_pos r with hzero | hpos
  · exact .inl hzero
  by_cases hfirst : s ≠ 0 ∧ r = binade
  · -- the neighbour belongs to the exponent below
    obtain ⟨hs, rfl⟩ := hfirst
    obtain ⟨s, rfl⟩ := Nat.exists_eq_succ_of_ne_zero hs
    have hbefore : s.succ * binade + binade - 1 = s * binade + (2 * binade - 1) := by
      unfold binade
      omega
    have hpow : 2 * ((2 * binade - 1) * 2 ^ s) + 2 * 2 ^ s = 2 * (2 * binade * 2 ^ s) := by
      rw [← Nat.mul_add, ← Nat.succ_mul]
      rfl
    rw [hbefore, units_scaled (.inr (by decide)) (by decide), Nat.pow_succ', hpow]
    exact .inr (.inl ⟨hs, rfl, by ring⟩)
  · have hbefore : s * binade + r - 1 = s * binade + (r - 1) := by omega
    rw [hbefore, units_scaled (by omega) (by omega), ← Nat.succ_mul, Nat.succ_eq_add_one,
      Nat.sub_add_cancel hpos]
    exact .inr (.inr rfl)

theorem units_above (hr : s = 0 ∨ binade ≤ r) (hr' : r ≤ 2 * binade) :
    (r = 2 * binade ∧ r * 2 ^ s < units (s * binade + r + 1)) ∨
      units (s * binade + r + 1) = r * 2 ^ s + 2 ^ s := by
  by_cases hlast : r = 2 * binade
  · have hlt : units (s * binade + r) < units (s * binade + r + 1) := units_lt_succ _
    rw [units_scaled hr hr'] at hlt
    exact .inl ⟨hlast, hlt⟩
  · rw [Nat.add_assoc, units_scaled (by omega) (by omega), Nat.add_mul, Nat.one_mul]
    exact .inr rfl

theorem rounds_scaled (hd : 0 < d) (hlow : s = 0 ∨ binade * (d * 2 ^ s) ≤ n)
    (hhigh : n < 2 * binade * (d * 2 ^ s)) :
    Rounds (s * binade + roundDiv n (d * 2 ^ s)) n d := by
  have hpos : 0 < d * 2 ^ s := Nat.mul_pos hd (Nat.two_pow_pos s)
  obtain ⟨hr, hr'⟩ := roundDiv_scaled hd hlow hhigh
  obtain ⟨hnear, hnear'⟩ := roundDiv_near hpos n
  have heven := roundDiv_even hpos n
  generalize roundDiv n (d * 2 ^ s) = r at *
  have hparity : (s * binade + r) % 2 = r % 2 := by unfold binade; omega
  have hvalue : units (s * binade + r) * d = r * (d * 2 ^ s) := by
    rw [units_scaled hr hr']
    ring
  -- below the first magnitude of an exponent the half-way point is nearer, and the quotient is past
  -- it
  have hbelow : (units (s * binade + r - 1) + units (s * binade + r)) * d < 2 * n ∨
      (units (s * binade + r - 1) + units (s * binade + r)) * d + d * 2 ^ s =
        2 * (r * (d * 2 ^ s)) ∨
      r = 0 := by
    rw [Nat.add_mul, hvalue]
    rcases units_below hr hr' with hzero | ⟨hs, rfl, heq⟩ | heq
    · exact .inr (.inr hzero)
    · have hge := hlow.resolve_left hs
      have hpow := Nat.two_pow_pos s
      have hlt : units (s * binade + binade - 1) < binade * 2 ^ s := by omega
      have hlt' := Nat.mul_lt_mul_of_pos_right hlt hd
      have hsame : binade * 2 ^ s * d = binade * (d * 2 ^ s) := by ring
      exact .inl (by omega)
    · have hsum := congrArg (· * d) heq
      simp only [Nat.add_mul] at hsum
      have hsame : r * 2 ^ s * d = r * (d * 2 ^ s) := by ring
      have hstep : 2 ^ s * d = d * 2 ^ s := Nat.mul_comm _ _
      exact .inr (.inl (by omega))
  -- the same above the last one
  have habove : 2 * n < (units (s * binade + r) + units (s * binade + r + 1)) * d ∨
      (units (s * binade + r) + units (s * binade + r + 1)) * d =
        2 * (r * (d * 2 ^ s)) + d * 2 ^ s := by
    rw [Nat.add_mul, hvalue]
    rcases units_above hr hr' with ⟨rfl, hlt⟩ | heq
    · have hlt' := Nat.mul_lt_mul_of_pos_right hlt hd
      have hsame : 2 * binade * 2 ^ s * d = 2 * binade * (d * 2 ^ s) := by ring
      exact .inl (by omega)
    · rw [heq, Nat.add_mul]
      have hsame : r * 2 ^ s * d = r * (d * 2 ^ s) := by ring
      have hstep : 2 ^ s * d = d * 2 ^ s := Nat.mul_comm _ _
      exact .inr (by omega)
  rw [← hparity] at heven
  refine ⟨?_, ?_, fun htie => ?_, fun htie => ?_⟩
  · rcases hbelow with hlt | heq | rfl
    · exact Nat.le_of_lt hlt
    · omega
    · obtain rfl : s = 0 := by
        by_contra hs
        have := hr.resolve_left hs
        exact absurd this (by decide)
      have hzero : (units (0 * binade + 0 - 1) + units (0 * binade + 0)) * d = 0 := by
        simp [units, binade]
      omega
  · rcases habove with hlt | heq
    · exact Nat.le_of_lt hlt
    · omega
  · rcases hbelow with hlt | heq | rfl
    · omega
    · exact heven (.inl (by omega))
    · rw [hparity]
  · rcases habove with hlt | heq
    · omega
    · exact heven (.inr (by omega))

/-- **A quotient rounds to the magnitude that is nearest to it.** -/
theorem rounds_nearest (n : Nat) (hd : 0 < d) : Rounds (nearest n d) (n <<< 1074) d := by
  unfold nearest
  generalize n <<< 1074 = x
  obtain ⟨hhigh, hlow⟩ := log2_scale (q := x / d) rfl
  dsimp only
  generalize Nat.log2 (x / d) - 52 = s at *
  rw [Nat.shiftLeft_eq]
  refine rounds_scaled hd (hlow.imp_right fun h => ?_) ?_
  · calc binade * (d * 2 ^ s) = binade * 2 ^ s * d := by ring
      _ ≤ x := (Nat.le_div_iff_mul_le hd).mp h
  · calc x < 2 * binade * 2 ^ s * d := (Nat.div_lt_iff_lt_mul hd).mp hhigh
      _ = 2 * binade * (d * 2 ^ s) := by ring

/-- **The nearest magnitude is told by where a quotient rounds to.** -/
theorem nearest_of_rounds (h : Rounds m (n <<< 1074) d) (hd : 0 < d) : nearest n d = m :=
  (rounds_nearest n hd).unique h hd

end VersionedStore.Binary64
