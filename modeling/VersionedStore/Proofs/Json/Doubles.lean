import Mathlib.Data.List.TakeWhile
import VersionedStore.Json.Printer
import VersionedStore.Proofs.Binary64.Decimal
import VersionedStore.Proofs.Json.RoundTrip

/-!
# Doubles in a text

A double is printed as its shortest decimal, with the point in its place or with an exponent.  The
digits and the exponent that are read stand for that decimal.  Where they are few, what is read for
them is the double itself; where they are many, it may be a neighbour.

* `readLiteral_text`: the parts of a number are read; `parts_of_few`: no digit of a word is left
  out;
* `exists_literal`: the text of a double has such parts;
* `Binary64.Short`: a double of few digits; `readsBack_double`: it is read back;
* `Value.doublesReadBack_of_short`: so are all doubles of few digits, wherever they stand.
-/

namespace VersionedStore

/-- A double of at most fifteen digits, the first of them between the eighth place after the point
and the fourteenth before it. -/
def Binary64.Short (x : Binary64) : Prop :=
  x.magnitude = 0 ∨ (Binary64.scientific x.magnitude).1.length ≤ 15 ∧
    -8 ≤ (Binary64.scientific x.magnitude).2 ∧ (Binary64.scientific x.magnitude).2 ≤ 13

namespace Json

open Text (Symbol)
open Binary64 (shortest scientific positional withExponent isPositional gridBase)

/-! ### Parts of a number -/

namespace Literal

/-- The point with the digits after it, if there are any. -/
def fractionText (l : Literal) : List Char := if l.fraction = [] then [] else '.' :: l.fraction

/-- The exponent with its sign, if there is one. -/
def exponentText (l : Literal) : List Char :=
  match l.exponent with
  | none => []
  | some e => 'e' :: (if e < 0 then '-' else '+') :: Nat.toDigits 10 e.natAbs

/-- What is written after the sign. -/
def text (l : Literal) : List Char := l.whole ++ (l.fractionText ++ l.exponentText)

def digits (l : Literal) : Nat := Nat.ofDigitChars 10 (l.whole ++ l.fraction) 0

def power (l : Literal) : Int := l.exponent.getD 0 - l.fraction.length

/-- The parts are digits, and a zero in front stands alone. -/
structure Sound (l : Literal) : Prop where
  ne_nil : l.whole ≠ []
  whole_digits : ∀ c ∈ l.whole, c.isDigit = true
  fraction_digits : ∀ c ∈ l.fraction, c.isDigit = true
  alone : l.whole.head? = some '0' → l.whole = ['0']

end Literal

variable {l : Literal} {rest : Input}

theorem noDigit_char {c : Char} (hc : c.isDigit = false) (s : Input) : NoDigit (.char c :: s) := by
  rintro x ⟨⟩
  exact if_neg (by rw [hc]; nofun)

theorem readExponent_text (l : Literal) :
    ∃ t, readExponent (l.exponentText.map .char) = .ok (l.exponent, t) ∧ t.input = [] := by
  unfold Literal.exponentText
  rcases l.exponent with _ | e
  · exact ⟨_, rfl, rfl⟩
  have hdigits : ∀ c ∈ Nat.toDigits 10 e.natAbs, c.isDigit = true := fun c hc =>
    Nat.isDigit_of_mem_toDigits (by omega) (by omega) hc
  obtain ⟨r, hread, hr⟩ := readDigits_digits Nat.toDigits_ne_nil hdigits
  have hvalue : Nat.ofDigitChars 10 (Nat.toDigits 10 e.natAbs) 0 = e.natAbs :=
    Nat.ofDigitChars_toDigits (by omega) (by omega)
  show ∃ t, readExponent (.char 'e' :: .char (if e < 0 then '-' else '+') ::
    (Nat.toDigits 10 e.natAbs).map .char) = .ok (some e, t) ∧ t.input = []
  rw [readExponent, if_pos (Or.inl rfl)]
  dsimp only
  by_cases he : e < 0
  · have hsigned :
        readDigits (readSign (.char '-' :: (Nat.toDigits 10 e.natAbs).map .char)).2.input =
        .ok (Nat.toDigits 10 e.natAbs, r) := hread
    rw [if_pos he, hsigned]
    refine ⟨_, congrArg (fun n => Except.ok (some n, _)) ?_, hr⟩
    show -((Nat.ofDigitChars 10 (Nat.toDigits 10 e.natAbs) 0 : Nat) : Int) = e
    omega
  · have hsigned :
        readDigits (readSign (.char '+' :: (Nat.toDigits 10 e.natAbs).map .char)).2.input =
        .ok (Nat.toDigits 10 e.natAbs, r) := hread
    rw [if_neg he, hsigned]
    refine ⟨_, congrArg (fun n => Except.ok (some n, _)) ?_, hr⟩
    show ((Nat.ofDigitChars 10 (Nat.toDigits 10 e.natAbs) 0 : Nat) : Int) = e
    omega

theorem noDigit_exponentText (l : Literal) : NoDigit (l.exponentText.map .char) := by
  unfold Literal.exponentText
  rcases l.exponent with _ | e
  · exact endsNumber_nil.noDigit
  · exact noDigit_char rfl _

theorem readFraction_text (h : l.Sound) :
    ∃ t, readFraction ((l.fractionText ++ l.exponentText).map .char) = .ok (l.fraction, t) ∧
      t.input = l.exponentText.map .char := by
  unfold Literal.fractionText
  by_cases hnone : l.fraction = []
  · rw [if_pos hnone, List.nil_append, hnone, readFraction_of_ne]
    · exact ⟨_, rfl, rfl⟩
    · unfold Literal.exponentText
      rcases l.exponent with _ | e <;> rintro ⟨⟩
  · obtain ⟨r, hread, hr⟩ := readDigits_digits hnone h.fraction_digits
    obtain ⟨r', heq, hr'⟩ := readDigits_append (noDigit_exponentText l) hread
    rw [hr, List.nil_append] at hr'
    rw [if_neg hnone, List.map_append, List.map_cons, List.cons_append, readFraction, heq]
    exact ⟨_, rfl, hr'⟩

theorem readWhole_text (h : l.Sound) :
    ∃ r, readWhole (l.whole.map .char) = .ok (l.whole, r) ∧ r.input = [] :=
  readWhole_digits h.ne_nil h.whole_digits h.alone

/-- **The parts of a number are read**, with nothing left. -/
theorem readLiteral_text (h : l.Sound) :
    ∃ r, readLiteral l.negative (l.text.map .char) = .ok (l, r) ∧ r.input = [] := by
  have hrest : NoDigit ((l.fractionText ++ l.exponentText).map .char) := by
    unfold Literal.fractionText
    split
    · exact noDigit_exponentText l
    · exact noDigit_char rfl _
  obtain ⟨r, hwhole, hr⟩ := readWhole_text h
  obtain ⟨⟨s₁, h₁⟩, hwhole, hs₁⟩ := readWhole_append hrest hwhole
  rw [hr, List.nil_append] at hs₁
  obtain rfl : s₁ = _ := hs₁
  obtain ⟨⟨s₂, h₂⟩, hfraction, hs₂⟩ := readFraction_text h
  obtain rfl : s₂ = _ := hs₂
  obtain ⟨⟨s₃, h₃⟩, hexponent, hs₃⟩ := readExponent_text l
  unfold Literal.text
  rw [List.map_append]
  unfold readLiteral
  simp only [hwhole, hfraction, hexponent, ok_bind]
  exact ⟨_, rfl, hs₃⟩

theorem le_ofDigitChars (ds : List Char) (word : Nat) : word ≤ Nat.ofDigitChars 10 ds word := by
  induction ds generalizing word with
  | nil => exact Nat.le_refl _
  | cons c ds ih =>
    rw [Nat.ofDigitChars_cons]
    exact Nat.le_trans (by omega) (ih _)

theorem gather_of_lt {ds : List Char} {word : Nat} (h : Nat.ofDigitChars 10 ds word < 2 ^ 64) :
    gather ds word = (Nat.ofDigitChars 10 ds word, 0) := by
  induction ds generalizing word with
  | nil => rfl
  | cons c ds ih =>
    rw [Nat.ofDigitChars_cons] at h ⊢
    rw [Nat.mul_comm 10 word] at *
    have hnext := Nat.lt_of_le_of_lt (le_ofDigitChars ds _) h
    exact (if_pos hnext).trans (ih h)

/-- **The digits that count are all the digits**, where a word holds them. -/
theorem parts_of_few (h : l.digits < 2 ^ 64) : l.parts = (l.digits, l.power) := by
  unfold Literal.digits at h
  rw [Nat.ofDigitChars_append] at h
  have hwhole := gather_of_lt (Nat.lt_of_le_of_lt (le_ofDigitChars l.fraction _) h)
  unfold Literal.parts Literal.digits Literal.power
  rw [Nat.ofDigitChars_append]
  simp only [hwhole, gather_of_lt h, Int.natCast_zero, Int.add_zero, Nat.sub_zero]

/-! ### Digits of a double -/

/-- Digits in scientific form: there is one, and the first is no zero. -/
structure Leading (ds : List Char) : Prop where
  ne_nil : ds ≠ []
  digits : ∀ c ∈ ds, c.isDigit = true
  head_ne : ds.head? ≠ some '0'

variable {ds : List Char} {e : Int} {m : Nat}

theorem exists_closing_zeros (ds : List Char) :
    ∃ n, ds = (ds.reverse.dropWhile (· = '0')).reverse ++ List.replicate n '0' := by
  have hzeros : ds.reverse.takeWhile (· = '0') =
      List.replicate (ds.reverse.takeWhile (· = '0')).length '0' := by
    refine List.eq_replicate_iff.mpr ⟨rfl, fun c hc => ?_⟩
    exact of_decide_eq_true (List.mem_takeWhile_imp (p := fun c => decide (c = '0')) hc)
  have hsplit := List.takeWhile_append_dropWhile (p := fun c => decide (c = '0')) (l := ds.reverse)
  refine ⟨(ds.reverse.takeWhile (· = '0')).length, ?_⟩
  rw [← List.reverse_replicate, ← hzeros, ← List.reverse_append, hsplit, List.reverse_reverse]

theorem scientific_spec (hm : 0 < m) : Leading (scientific m).1 ∧
    ∃ less, (shortest m).1 = Nat.ofDigitChars 10 (scientific m).1 0 * Nat.pow 10 less ∧
      (scientific m).2 + 1 + gridBase = (shortest m).2 + less + (scientific m).1.length := by
  have hpos := Binary64.shortest_pos hm
  unfold scientific
  rcases hshort : shortest m with ⟨c, p⟩
  rw [hshort] at hpos
  dsimp only at hpos ⊢
  obtain ⟨less, hsplit⟩ := exists_closing_zeros (Nat.toDigits 10 c)
  have hvalue : Nat.ofDigitChars 10 (Nat.toDigits 10 c) 0 = c :=
    Nat.ofDigitChars_toDigits (by omega) (by omega)
  have hlength := congrArg List.length hsplit
  rw [List.length_append, List.length_replicate] at hlength
  have hhead := head_toDigits (Nat.ne_of_gt hpos)
  have hdigits : ∀ d ∈ Nat.toDigits 10 c, d.isDigit = true := fun d hd =>
    Nat.isDigit_of_mem_toDigits (by omega) (by omega) hd
  rw [hsplit, Nat.ofDigitChars_append, Nat.ofDigitChars_replicate_zero] at hvalue
  rw [hsplit] at hhead hdigits
  generalize ((Nat.toDigits 10 c).reverse.dropWhile (· = '0')).reverse = ds at *
  have hne : ds ≠ [] := by
    rintro rfl
    rw [Nat.ofDigitChars_nil, Nat.mul_zero] at hvalue
    omega
  refine ⟨⟨hne, fun d hd => hdigits d (List.mem_append_left _ hd), fun h => hhead ?_⟩, less, ?_, ?_⟩
  · obtain ⟨d, rest, rfl⟩ := List.exists_cons_of_ne_nil hne
    exact h
  · rw [Nat.mul_comm]
    exact hvalue.symm
  · unfold gridBase
    omega

/-- **Parts that stand for digits in scientific form.**  They are those of no integer.  Zeros are
put at the end of the digits up to the point and once after it. -/
structure StandsFor (l : Literal) (ds : List Char) (e : Int) : Prop where
  sound : l.Sound
  not_whole : l.fraction ≠ [] ∨ l.exponent ≠ none
  value : ∃ more, l.digits = Nat.ofDigitChars 10 ds 0 * Nat.pow 10 more ∧
    l.power + more + ds.length = e + 1 ∧ (more = 0 ∨ more + ds.length = e + 2)

theorem isDigit_replicate_zero {n : Nat} : ∀ c ∈ List.replicate n '0', c.isDigit = true := by
  intro c hc
  rw [List.eq_of_mem_replicate hc]
  rfl

theorem isDigit_append {es : List Char} (hds : ∀ c ∈ ds, c.isDigit = true)
    (hes : ∀ c ∈ es, c.isDigit = true) : ∀ c ∈ ds ++ es, c.isDigit = true := by
  intro c hc
  rcases List.mem_append.mp hc with hc | hc
  · exact hds c hc
  · exact hes c hc

theorem ofDigitChars_lt (hds : ∀ c ∈ ds, c.isDigit = true) :
    Nat.ofDigitChars 10 ds 0 < 10 ^ ds.length := by
  suffices h : ∀ word, Nat.ofDigitChars 10 ds word < (word + 1) * 10 ^ ds.length by
    simpa using h 0
  induction ds with
  | nil => simp
  | cons c ds ih =>
    intro word
    have hc : c.toNat - '0'.toNat ≤ 9 := by
      have := (Char.isDigit_iff_toNat.mp (hds c (List.mem_cons_self ..))).2
      simp only [Char.reduceToNat] at this ⊢
      omega
    rw [Nat.ofDigitChars_cons, List.length_cons, Nat.pow_succ', ← Nat.mul_assoc]
    refine Nat.lt_of_lt_of_le (ih (fun d hd => hds d (List.mem_cons_of_mem c hd)) _) ?_
    exact Nat.mul_le_mul_right _ (by omega)

theorem text_of_point {negative : Bool} {whole fraction : List Char} (h : fraction ≠ []) :
    (Literal.mk negative whole fraction none).text = whole ++ '.' :: fraction := by
  unfold Literal.text Literal.fractionText Literal.exponentText
  rw [if_neg h, List.append_nil]

theorem ofDigitChars_zeros (n : Nat) (ds : List Char) :
    Nat.ofDigitChars 10 (List.replicate n '0' ++ ds) 0 = Nat.ofDigitChars 10 ds 0 := by
  rw [Nat.ofDigitChars_append, Nat.ofDigitChars_replicate_zero, Nat.mul_zero]

/-- The point stands before the digits, with zeros in between. -/
theorem standsFor_fraction (h : Leading ds) (hneg : e < 0) (negative : Bool) :
    StandsFor ⟨negative, ['0'], List.replicate ((-e).toNat - 1) '0' ++ ds, none⟩ ds e := by
  have hfraction : List.replicate ((-e).toNat - 1) '0' ++ ds ≠ [] := by simp [h.ne_nil]
  refine ⟨⟨by simp, by simp [Char.isDigit], ?_, fun _ => rfl⟩, .inl hfraction, 0, ?_, ?_, .inl rfl⟩
  · exact isDigit_append isDigit_replicate_zero h.digits
  · rw [show Nat.pow 10 0 = 1 from rfl, Nat.mul_one]
    exact (ofDigitChars_zeros 1 _).trans (ofDigitChars_zeros _ _)
  · unfold Literal.power
    simp only [Option.getD_none, List.length_append, List.length_replicate]
    omega

/-- The point stands after the digits, with zeros in between and one zero after it. -/
theorem standsFor_padded (h : Leading ds) (hneg : ¬ e < 0) {n : Nat}
    (hn : e.toNat + 1 = ds.length + n) (negative : Bool) :
    StandsFor ⟨negative, ds ++ List.replicate n '0', ['0'], none⟩ ds e := by
  refine ⟨⟨by simp [h.ne_nil], isDigit_append h.digits isDigit_replicate_zero,
    by simp [Char.isDigit], fun hhead => absurd ?_ h.head_ne⟩, .inl (by simp), n + 1, ?_, ?_,
    .inr (by omega)⟩
  · obtain ⟨d, rest, rfl⟩ := List.exists_cons_of_ne_nil h.ne_nil
    exact hhead
  · have hzeros : List.replicate n '0' ++ ['0'] = List.replicate (n + 1) '0' :=
      List.replicate_succ'.symm
    unfold Literal.digits
    rw [List.append_assoc, hzeros, Nat.ofDigitChars_append, Nat.ofDigitChars_replicate_zero,
      Nat.mul_comm]
    rfl
  · unfold Literal.power
    simp only [Option.getD_none, List.length_singleton]
    omega

/-- The point stands among the digits. -/
theorem standsFor_split (h : Leading ds) (hneg : ¬ e < 0) (hlong : ¬ ds.length ≤ e.toNat + 1)
    (negative : Bool) :
    StandsFor ⟨negative, ds.take (e.toNat + 1), ds.drop (e.toNat + 1), none⟩ ds e := by
  have hdrop : ds.drop (e.toNat + 1) ≠ [] := by
    rw [Ne, List.drop_eq_nil_iff]
    exact hlong
  refine ⟨⟨?_, fun c hc => h.digits c (List.mem_of_mem_take hc),
    fun c hc => h.digits c (List.mem_of_mem_drop hc), fun hhead => absurd ?_ h.head_ne⟩,
    .inl hdrop, 0, ?_, ?_, .inl rfl⟩
  · rw [Ne, List.take_eq_nil_iff]
    exact fun hnone => h.ne_nil (hnone.resolve_left (Nat.succ_ne_zero _))
  · rw [List.head?_take, if_neg (Nat.succ_ne_zero _)] at hhead
    exact hhead
  · unfold Literal.digits
    rw [List.take_append_drop]
    exact (Nat.mul_one _).symm
  · unfold Literal.power
    simp only [Option.getD_none, List.length_drop]
    omega

theorem exists_positional (h : Leading ds) (e : Int) (negative : Bool) :
    ∃ l : Literal, l.negative = negative ∧ l.text = positional ds e ∧ StandsFor l ds e := by
  unfold positional
  by_cases hneg : e < 0
  · refine ⟨_, rfl, ?_, standsFor_fraction h hneg negative⟩
    rw [if_pos hneg, text_of_point (by simp [h.ne_nil])]
    rfl
  rw [if_neg hneg]
  dsimp only
  by_cases hlong : ds.length ≤ e.toNat + 1
  · obtain ⟨n, hn⟩ := Nat.exists_eq_add_of_le hlong
    refine ⟨_, rfl, ?_, standsFor_padded h hneg hn negative⟩
    rw [if_pos hlong, Nat.sub_eq_of_eq_add' hn, text_of_point (by simp)]
  · have hsplit := standsFor_split h hneg hlong negative
    refine ⟨_, rfl, ?_, hsplit⟩
    rw [if_neg hlong, text_of_point (hsplit.not_whole.resolve_right (· rfl))]

theorem exists_withExponent (h : Leading ds) (e : Int) (negative : Bool) :
    ∃ l : Literal, l.negative = negative ∧ l.text = withExponent ds e ∧ StandsFor l ds e := by
  obtain ⟨d, rest, rfl⟩ := List.exists_cons_of_ne_nil h.ne_nil
  refine ⟨⟨negative, [d], rest, some e⟩, rfl, ?_, ⟨?_, .inr (by simp), 0, ?_, ?_, .inl rfl⟩⟩
  · unfold Literal.text Literal.fractionText Literal.exponentText withExponent
    rcases rest with _ | ⟨r, rs⟩
    · rfl
    · rfl
  · refine ⟨by simp, fun c hc => h.digits c ?_,
      fun c hc => h.digits c (List.mem_cons_of_mem d hc), fun hhead => absurd hhead h.head_ne⟩
    rw [List.mem_singleton.mp hc]
    exact List.mem_cons_self ..
  · exact (Nat.mul_one _).symm
  · unfold Literal.power
    simp only [Option.getD_some, List.length_cons]
    omega

/-! ### The double of a text -/

theorem readNumber_text {x : Binary64} (h : l.Sound) (hnegative : l.negative = x.negative)
    (hpoint : l.fraction ≠ [] ∨ l.exponent ≠ none) (hdigits : l.digits < 2 ^ 53)
    (hx : Binary64.ofParts? x.negative l.digits l.power = some x) :
    ∃ r, readNumber x.negative (l.text.map .char) = .ok (.double x, r) ∧ r.input = [] := by
  obtain ⟨r, hread, hr⟩ := readLiteral_text h
  have hnot : ¬ l.isWhole = true := by
    unfold Literal.isWhole
    rw [Bool.and_eq_true, List.isEmpty_iff, Option.isNone_iff_eq_none]
    rintro ⟨hfraction, hexponent⟩
    exact hpoint.elim (· hfraction) (· hexponent)
  have hnumber : l.number? = some (.double x) := by
    unfold Literal.number?
    dsimp only
    rw [dif_neg fun hwhole => hnot hwhole.1, parts_of_few (by omega), hnegative]
    exact congrArg (Option.map Number.double) hx
  rw [hnegative] at hread
  unfold readNumber
  simp only [hread, ok_bind, hnumber]
  exact ⟨_, rfl, hr⟩

theorem exists_standsFor (h : Leading ds) (e : Int) (negative : Bool) :
    ∃ l : Literal, l.negative = negative ∧
      l.text = (if isPositional e then positional ds e else withExponent ds e) ∧
      StandsFor l ds e := by
  split
  · exact exists_positional h e negative
  · exact exists_withExponent h e negative

/-- Digits that are few stay few with the zeros that are put at their end. -/
theorem StandsFor.digits_lt (hl : StandsFor l ds e) (h : Leading ds) (hlength : ds.length ≤ 15)
    (he : e ≤ 13) : l.digits < 2 ^ 53 := by
  obtain ⟨more, hmore, -, hzeros⟩ := hl.value
  calc l.digits < 10 ^ ds.length * Nat.pow 10 more := by
        rw [hmore]
        exact Nat.mul_lt_mul_of_pos_right (ofDigitChars_lt h.digits) (Binary64.pow_ten_pos more)
    _ = 10 ^ (ds.length + more) := (Nat.pow_add _ _ _).symm
    _ ≤ 10 ^ 15 := Nat.pow_le_pow_right (by decide) (by omega)
    _ < 2 ^ 53 := by decide

/-- **The text of a double of few digits has parts that are read as it.** -/
theorem exists_literal {x : Binary64} (h : x.Short) :
    ∃ l : Literal, l.negative = x.negative ∧
      x.text = (if x.negative then '-' :: l.text else l.text) ∧ l.Sound ∧
      (l.fraction ≠ [] ∨ l.exponent ≠ none) ∧ l.digits < 2 ^ 53 ∧
      Binary64.ofParts? x.negative l.digits l.power = some x := by
  unfold Binary64.text
  rcases Nat.eq_zero_or_pos x.magnitude with hzero | hpos
  · obtain ⟨negative, magnitude, hlt⟩ := x
    obtain rfl : magnitude = 0 := hzero
    have hread : ∀ negative,
        Binary64.ofParts? negative 0 (-1) = some (Binary64.zero negative) := by decide +kernel
    refine ⟨⟨negative, ['0'], ['0'], none⟩, rfl, rfl, ?_, .inl (by simp), Nat.two_pow_pos 53,
      hread negative⟩
    exact ⟨by simp, by simp [Char.isDigit], by simp [Char.isDigit], fun _ => rfl⟩
  · obtain ⟨hlength, hlow, hhigh⟩ := h.resolve_left (Nat.ne_of_gt hpos)
    obtain ⟨hleading, less, hfewer, hexponent⟩ := scientific_spec hpos
    obtain ⟨l, hnegative, htext, hl⟩ := exists_standsFor hleading (scientific x.magnitude).2
      x.negative
    have hdigits := hl.digits_lt hleading hlength hhigh
    obtain ⟨more, hmore, hpower, hzeros⟩ := hl.value
    refine ⟨l, hnegative, ?_, hl.sound, hl.not_whole, hdigits, ?_⟩
    · rw [if_neg (Nat.ne_of_gt hpos), htext]
    · exact Binary64.ofParts?_shortest x hpos hdigits (by omega) hfewer hmore (by omega)

/-- **A double of few digits is read back** from its text. -/
theorem readsBack_double {x : Binary64} (h : x.Short) : (Number.double x).ReadsBack := by
  obtain ⟨l, hnegative, htext, hsound, hpoint, hdigits, hx⟩ := exists_literal h
  obtain ⟨r, hread, hr⟩ := readNumber_text hsound hnegative hpoint hdigits hx
  have hprint : printNumber (.double x) = x.text := rfl
  unfold Number.ReadsBack
  rw [hprint, htext]
  rcases hminus : x.negative with _ | _ <;> rw [hminus] at hread
  · obtain ⟨d, ds, hd⟩ := List.exists_cons_of_ne_nil hsound.ne_nil
    have hdigit := hsound.whole_digits d (by rw [hd]; exact List.mem_cons_self ..)
    have hcons : l.text.map Symbol.char =
        .char d :: (ds ++ (l.fractionText ++ l.exponentText)).map .char := by
      unfold Literal.text
      rw [hd]
      rfl
    rw [if_neg nofun, hcons, readScalar_digit hdigit, ← hcons, hread]
    exact ⟨_, rfl, hr⟩
  · rw [if_pos rfl, List.map_cons, readScalar_minus, hread]
    exact ⟨_, rfl, hr⟩

-- of seventeen digits not every double is read back: this one is read as its neighbour
example : Binary64.text ⟨false, 4623159048881024406, by decide⟩ = "12.380196114964559".toList ∧
    (Binary64.ofParts? false 12380196114964559 (-15)).map (·.magnitude) =
      some 4623159048881024407 := by
  decide +kernel

end Json

/-- **A value whose doubles have few digits** has them read back, wherever they stand. -/
theorem Value.doublesReadBack_of_short {v : Value}
    (h : ∀ x, Within (.number (.double x)) v → x.Short) : v.DoublesReadBack := fun x hx =>
  Json.readsBack_double (h x hx)

end VersionedStore
