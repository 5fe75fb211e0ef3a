import VersionedStore.Proofs.Binary64.Shortest

/-!
# Decimals of few digits

What is read for a decimal is rounded twice: the digits first, and then their product or quotient
with a power of ten.  Digits below `2 ^ 53` and powers of ten up to `10 ^ 22` are numbers
themselves, so that the first rounding changes nothing and what is read is the number nearest to the
decimal.

* `nearest_units`: a value of a magnitude is rounded to that magnitude;
* `nearest_congr`: equal quotients round alike;
* `exists_units`, `units_nearest`: small multiples of powers of two are values;
* `readParts?_of_few`: what is read for few digits is the magnitude nearest to the decimal;
* `ofParts?_shortest`: the digits of the shortest decimal are read as the number, if they are few.
-/

namespace VersionedStore.Binary64

variable {m m' a b n n' d d' digits : Nat} {exponent : Int}

/-! ### Values -/

theorem rounds_units (m : Nat) (hd : 0 < d) : Rounds m (units m * d) d := by
  have hbelow : units (m - 1) ≤ units m := units_le_units (by omega)
  have habove : units m < units (m + 1) := units_lt_succ m
  have hlow : units (m - 1) * d ≤ units m * d := Nat.mul_le_mul_right d hbelow
  have hhigh : units m * d < units (m + 1) * d := Nat.mul_lt_mul_of_pos_right habove hd
  refine ⟨?_, ?_, fun htie => ?_, fun htie => ?_⟩ <;> rw [Nat.add_mul] at *
  · omega
  · omega
  · -- only zero is its own neighbour
    rcases Nat.eq_zero_or_pos m with rfl | hm
    · rfl
    have hless : units (m - 1) * d < units m * d :=
      Nat.mul_lt_mul_of_pos_right (units_lt_units (by omega)) hd
    omega
  · omega

theorem nearest_units (hd : 0 < d) (h : n <<< 1074 = units m * d) : nearest n d = m :=
  nearest_of_rounds (h ▸ rounds_units m hd) hd

theorem Rounds.congr (h : Rounds m n d) (hd : 0 < d) (hd' : 0 < d') (heq : n * d' = n' * d) :
    Rounds m n' d' := by
  have hsame (l : Nat) : l * d * d' = l * d' * d := Nat.mul_right_comm l d d'
  have htwice : 2 * n * d' = 2 * n' * d := by rw [Nat.mul_assoc, heq, Nat.mul_assoc]
  have hle {l : Nat} (hl : l * d ≤ 2 * n) : l * d' ≤ 2 * n' := by
    refine Nat.le_of_mul_le_mul_right ?_ hd
    rw [← htwice, ← hsame]
    exact Nat.mul_le_mul_right d' hl
  have hge {l : Nat} (hl : 2 * n ≤ l * d) : 2 * n' ≤ l * d' := by
    refine Nat.le_of_mul_le_mul_right ?_ hd
    rw [← htwice, ← hsame]
    exact Nat.mul_le_mul_right d' hl
  have htie {l : Nat} (hl : l * d' = 2 * n') : l * d = 2 * n := by
    refine Nat.eq_of_mul_eq_mul_right hd' ?_
    rw [htwice, hsame, hl]
  exact ⟨hle h.low_le, hge h.le_high, fun hl => h.even_of_low (htie hl),
    fun hl => h.even_of_high (htie hl.symm).symm⟩

theorem nearest_congr (hd : 0 < d) (hd' : 0 < d') (heq : n * d' = n' * d) :
    nearest n d = nearest n' d' := by
  refine (nearest_of_rounds ((rounds_nearest n hd).congr hd hd' ?_) hd').symm
  rw [Nat.shiftLeft_eq, Nat.shiftLeft_eq, Nat.mul_right_comm, heq, Nat.mul_right_comm]

/-- **Multiples of powers of two by less than `2 ^ 53` are values.** -/
theorem exists_units {c : Nat} (hc : c < 2 * binade) (s : Nat) : ∃ m, units m = c * 2 ^ s := by
  induction s generalizing c with
  | zero => exact ⟨0 * binade + c, units_scaled (.inl rfl) (Nat.le_of_lt hc)⟩
  | succ s ih =>
    by_cases hlarge : binade ≤ c
    · exact ⟨(s + 1) * binade + c, units_scaled (.inr hlarge) (Nat.le_of_lt hc)⟩
    · obtain ⟨m, hm⟩ := ih (c := 2 * c) (by omega)
      exact ⟨m, by rw [hm]; ring⟩

theorem units_nearest {c s : Nat} (hc : c < 2 * binade) (hn : n = c * 2 ^ s) :
    units (nearest n 1) = n <<< 1074 := by
  obtain ⟨m, hm⟩ := exists_units hc (s + 1074)
  have hvalue : n <<< 1074 = units m * 1 := by
    rw [hm, hn, Nat.shiftLeft_eq, Nat.mul_one, Nat.pow_add, Nat.mul_assoc]
  rw [nearest_units Nat.one_pos hvalue, hvalue, Nat.mul_one]

theorem units_tenPow {k : Nat} (hk : k ≤ 22) : units (tenPow k) = Nat.pow 10 k <<< 1074 := by
  have hfive : 5 ^ k < 2 * binade :=
    calc 5 ^ k ≤ 5 ^ 22 := Nat.pow_le_pow_right (by decide) hk
      _ < 2 * binade := by decide
  exact units_nearest (s := k) hfive (Nat.mul_pow 5 2 k)

theorem mul_of_units (ha : units a = n <<< 1074) (hb : units b = n' <<< 1074) :
    mul a b = nearest (n * n') 1 := by
  unfold mul
  refine nearest_congr (Nat.shiftLeft_pos_iff.mpr Nat.one_pos) Nat.one_pos ?_
  have htwice : 1 <<< 2148 = (1 <<< 1074) <<< 1074 := Nat.shiftLeft_add 1 1074 1074
  rw [ha, hb, htwice]
  generalize 1074 = k
  simp only [Nat.shiftLeft_eq]
  ring

theorem div_of_units (ha : units a = n <<< 1074) (hb : units b = d <<< 1074) (hd : 0 < d) :
    div a b = nearest n d := by
  unfold div
  refine nearest_congr (hb ▸ Nat.shiftLeft_pos_iff.mpr hd) hd ?_
  rw [ha, hb]
  generalize 1074 = k
  simp only [Nat.shiftLeft_eq]
  ring

/-! ### Decimals -/

/-- The quotient of a decimal: what stands above the line. -/
def numerator (digits : Nat) (exponent : Int) : Nat := digits * Nat.pow 10 exponent.toNat

/-- The quotient of a decimal: what stands below the line. -/
def denominator (exponent : Int) : Nat := Nat.pow 10 (-exponent).toNat

theorem denominator_pos (exponent : Int) : 0 < denominator exponent := pow_ten_pos _

/-- **What is read for few digits** is the magnitude nearest to the decimal. -/
theorem readParts?_of_few (hdigits : digits < 2 ^ 53) (hexponent : exponent.natAbs ≤ 22) :
    readParts? digits exponent =
      some (nearest (numerator digits exponent) (denominator exponent)) := by
  have hvalue : units (nearest digits 1) = digits <<< 1074 :=
    units_nearest (s := 0) hdigits (Nat.mul_one digits).symm
  have hpow := units_tenPow hexponent
  unfold readParts? numerator denominator
  dsimp only
  by_cases hneg : exponent < 0
  · have hzero : exponent.toNat = 0 := by omega
    have habs : (-exponent).toNat = exponent.natAbs := by omega
    rw [if_pos hneg, divTenPow, if_pos (by omega), hzero, habs,
      div_of_units hvalue hpow (pow_ten_pos _)]
    exact congrArg (fun k => some (nearest k _)) (Nat.mul_one digits).symm
  · have hzero : (-exponent).toNat = 0 := by omega
    have habs : exponent.toNat = exponent.natAbs := by omega
    rw [if_neg hneg, if_pos (by omega), hzero, habs, mul_of_units hvalue hpow]

theorem ofParts?_of_rounds (x : Binary64) (hdigits : digits < 2 ^ 53)
    (hexponent : exponent.natAbs ≤ 22)
    (h : Rounds x.magnitude (numerator digits exponent <<< 1074) (denominator exponent)) :
    ofParts? x.negative digits exponent = some x := by
  unfold ofParts?
  rw [readParts?_of_few hdigits hexponent, nearest_of_rounds h (denominator_pos exponent)]
  exact dif_pos x.magnitude_lt

theorem shiftLeft_eq_mul (a k : Nat) : a <<< k = a * 1 <<< k := by
  rw [← mul_shiftLeft, Nat.mul_one]

/-- **The digits of the shortest decimal** are read as the number, with zeros put at their end or
taken away, if they are few. -/
theorem ofParts?_shortest (x : Binary64) (hx : 0 < x.magnitude) {value more less : Nat}
    (hdigits : digits < 2 ^ 53) (hsmall : exponent.natAbs ≤ 22)
    (hfewer : (shortest x.magnitude).1 = value * Nat.pow 10 less)
    (hmore : digits = value * Nat.pow 10 more)
    (hexponent : exponent + more + gridBase = (shortest x.magnitude).2 + less) :
    ofParts? x.negative digits exponent = some x := by
  refine ofParts?_of_rounds x hdigits hsmall (rounds_of_readsBack (shortest_readsBack hx)
    (denominator_pos exponent) ?_)
  have hpowers : (shortest x.magnitude).2 + (-exponent).toNat + less =
      more + exponent.toNat + gridBase := by omega
  have hproduct := congrArg (Nat.pow 10) hpowers
  rw [hfewer, hmore]
  unfold gridStep numerator denominator
  simp only [pow_ten_add] at hproduct
  rw [Nat.shiftLeft_succ, shiftLeft_eq_mul, shiftLeft_eq_mul (value * _ * _)]
  generalize 1 <<< 1074 = unit
  generalize Nat.pow 10 gridBase = g at *
  calc value * Nat.pow 10 less * (2 * (Nat.pow 10 (shortest x.magnitude).2 * unit)) *
        Nat.pow 10 (-exponent).toNat
      = 2 * value * unit * (Nat.pow 10 (shortest x.magnitude).2 * Nat.pow 10 (-exponent).toNat *
          Nat.pow 10 less) := by ring
    _ = 2 * value * unit * (Nat.pow 10 more * Nat.pow 10 exponent.toNat * g) := by rw [hproduct]
    _ = 2 * (value * Nat.pow 10 more * Nat.pow 10 exponent.toNat * unit) * g := by ring

end VersionedStore.Binary64
