import Mathlib.Tactic.Common
import VersionedStore.Json.Reader

/-!
# Numbers in the middle of a text

A number has no closing mark: it ends where the text cannot go on with it.  So a number that is read
from a text of its own is also read where more follows, as long as that is no part of a number.

* `EndsNumber`: what can follow a number;
* `readNumber_append`: a number is read in front of it as it is read alone;
* `Number.ReadsBack`: the text of a number is read as the number; `readsBack_integer`: this is so
  for all integers;
* `readScalar_printNumber`: such a number is read in the middle of a text.
-/

namespace VersionedStore

namespace Json

open Text (Symbol)

section Bind

variable {ε α β : Type}

@[simp] theorem ok_bind (a : α) (f : α → Except ε β) : (Except.ok a >>= f) = f a := rfl

@[simp] theorem error_bind (e : ε) (f : α → Except ε β) : (Except.error e >>= f) = .error e := rfl

end Bind

/-- What can follow a number: no digit, no point and no sign of an exponent. -/
def EndsNumber (rest : Input) : Prop :=
  ∀ x ∈ rest.head?, digit? x = none ∧ x ≠ .char '.' ∧ x ≠ .char 'e' ∧ x ≠ .char 'E'

theorem endsNumber_nil : EndsNumber [] := by simp [EndsNumber]

/-- What can follow a digit that is the last one. -/
def NoDigit (rest : Input) : Prop := ∀ x ∈ rest.head?, digit? x = none

theorem EndsNumber.noDigit {rest : Input} (h : EndsNumber rest) : NoDigit rest :=
  fun x hx => (h x hx).1

variable {s rest : Input} {ds : List Char}

/-! ### In front of what ends it -/

theorem spanDigits_of_noDigit (hrest : NoDigit rest) : spanDigits rest = ([], .all rest) := by
  rcases rest with _ | ⟨x, rest⟩
  · rfl
  · simp [spanDigits, hrest x rfl]

theorem spanDigits_append (hrest : NoDigit rest) (s : Input) :
    (spanDigits (s ++ rest)).1 = (spanDigits s).1 ∧
      (spanDigits (s ++ rest)).2.input = (spanDigits s).2.input ++ rest := by
  induction s with
  | nil =>
    rw [List.nil_append, spanDigits_of_noDigit hrest]
    exact ⟨rfl, rfl⟩
  | cons x s ih =>
    rw [List.cons_append]
    unfold spanDigits
    rcases digit? x with _ | c
    · exact ⟨rfl, rfl⟩
    · exact ⟨congrArg _ ih.1, ih.2⟩

theorem readDigits_cons {x : Symbol} {c : Char} (hx : digit? x = some c) (s : Input) :
    readDigits (x :: s) = .ok (c :: (spanDigits s).1, (spanDigits s).2.after x) := by
  simp [readDigits, hx]

theorem readDigits_append (hrest : NoDigit rest) {r : Rest s} (h : readDigits s = .ok (ds, r)) :
    ∃ r', readDigits (s ++ rest) = .ok (ds, r') ∧ r'.input = r.input ++ rest := by
  rcases s with _ | ⟨x, s⟩
  · cases h
  rcases hx : digit? x with _ | c
  · simp [readDigits, hx] at h
  rw [readDigits_cons hx] at h
  obtain ⟨rfl, rfl⟩ := Prod.mk.inj (Except.ok.inj h)
  obtain ⟨hdigits, hinput⟩ := spanDigits_append hrest s
  refine ⟨(spanDigits (s ++ rest)).2.after x, ?_, hinput⟩
  rw [← hdigits]
  exact readDigits_cons hx _

theorem readWhole_of_ne {s : Input} (h : s.head? ≠ some (.char '0')) :
    readWhole s = readDigits s := by
  refine readWhole.eq_2 s ?_
  rintro s' rfl
  exact h rfl

theorem readWhole_append (hrest : NoDigit rest) {r : Rest s} (h : readWhole s = .ok (ds, r)) :
    ∃ r', readWhole (s ++ rest) = .ok (ds, r') ∧ r'.input = r.input ++ rest := by
  rcases s with _ | ⟨x, s⟩
  · cases h
  by_cases hx : x = .char '0'
  swap
  · rw [readWhole_of_ne (by simpa using hx)] at h ⊢
    exact readDigits_append hrest h
  subst hx
  -- a zero stands alone, in front of what follows as well
  have halone : (s ++ rest).head?.bind digit? = s.head?.bind digit? := by
    rcases s with _ | ⟨y, s⟩
    · rcases rest with _ | ⟨y, rest⟩
      · rfl
      · exact hrest y rfl
    · rfl
  rw [List.cons_append, readWhole, halone]
  rw [readWhole] at h
  split at h
  · cases h
  · rename_i hzero
    obtain ⟨rfl, rfl⟩ := Prod.mk.inj (Except.ok.inj h)
    exact ⟨_, if_neg hzero, rfl⟩

theorem readFraction_of_ne (h : s.head? ≠ some (.char '.')) :
    readFraction s = .ok ([], .all s) := by
  refine readFraction.eq_2 s ?_
  rintro s' rfl
  exact h rfl

theorem EndsNumber.head_ne (hrest : EndsNumber rest) :
    rest.head? ≠ some (.char '.') ∧ rest.head? ≠ some (.char 'e') ∧
      rest.head? ≠ some (.char 'E') :=
  ⟨fun h => (hrest _ h).2.1 rfl, fun h => (hrest _ h).2.2.1 rfl, fun h => (hrest _ h).2.2.2 rfl⟩

theorem readFraction_append (hrest : EndsNumber rest) {t : Tail s}
    (h : readFraction s = .ok (ds, t)) :
    ∃ t', readFraction (s ++ rest) = .ok (ds, t') ∧ t'.input = t.input ++ rest := by
  rcases s with _ | ⟨x, s⟩
  · rw [readFraction_of_ne (by rintro ⟨⟩)] at h
    obtain ⟨rfl, rfl⟩ := Prod.mk.inj (Except.ok.inj h)
    exact ⟨_, readFraction_of_ne hrest.head_ne.1, rfl⟩
  by_cases hx : x = .char '.'
  swap
  · rw [readFraction_of_ne (by simpa using hx)] at h ⊢
    obtain ⟨rfl, rfl⟩ := Prod.mk.inj (Except.ok.inj h)
    exact ⟨_, rfl, rfl⟩
  subst hx
  rw [readFraction] at h
  rw [List.cons_append, readFraction]
  rcases hd : readDigits s with e | ⟨found, r⟩ <;> rw [hd] at h
  · cases h
  obtain ⟨rfl, rfl⟩ := Prod.mk.inj (Except.ok.inj h)
  obtain ⟨r', heq, hinput⟩ := readDigits_append hrest.noDigit hd
  rw [heq]
  exact ⟨_, rfl, hinput⟩

theorem readSign_of_ne (h : s.head? ≠ some (.char '+')) (h' : s.head? ≠ some (.char '-')) :
    readSign s = (false, .all s) := by
  refine readSign.eq_3 s ?_ ?_ <;> rintro s' rfl
  · exact h rfl
  · exact h' rfl

theorem readSign_append (x : Symbol) (s rest : Input) :
    (readSign (x :: s ++ rest)).1 = (readSign (x :: s)).1 ∧
      (readSign (x :: s ++ rest)).2.input = (readSign (x :: s)).2.input ++ rest := by
  by_cases hplus : x = .char '+'
  · subst hplus
    exact ⟨rfl, rfl⟩
  by_cases hminus : x = .char '-'
  · subst hminus
    exact ⟨rfl, rfl⟩
  rw [readSign_of_ne (by simpa using hplus) (by simpa using hminus),
    readSign_of_ne (by simpa using hplus) (by simpa using hminus)]
  exact ⟨rfl, rfl⟩

theorem readSignedDigits_append (hrest : EndsNumber rest) {r : Rest (readSign s).2.input}
    (h : readDigits (readSign s).2.input = .ok (ds, r)) :
    ∃ r', readDigits (readSign (s ++ rest)).2.input = .ok (ds, r') ∧
      (readSign (s ++ rest)).1 = (readSign s).1 ∧ r'.input = r.input ++ rest := by
  rcases s with _ | ⟨x, s⟩
  · cases h
  obtain ⟨hsign, hinput⟩ := readSign_append x s rest
  obtain ⟨r', heq, hr⟩ := readDigits_append hrest.noDigit h
  rw [hinput]
  exact ⟨r', heq, hsign, hr⟩

theorem readExponent_of_ne (h : s.head? ≠ some (.char 'e')) (h' : s.head? ≠ some (.char 'E')) :
    readExponent s = .ok (none, .all s) := by
  unfold readExponent
  split
  · rename_i c s'
    have hc : ¬ (c = 'e' ∨ c = 'E') := by
      rintro (rfl | rfl)
      · exact h rfl
      · exact h' rfl
    rw [if_neg hc]
  · rfl

theorem readExponent_append (hrest : EndsNumber rest) {exponent : Option Int} {t : Tail s}
    (h : readExponent s = .ok (exponent, t)) :
    ∃ t', readExponent (s ++ rest) = .ok (exponent, t') ∧ t'.input = t.input ++ rest := by
  rcases s with _ | ⟨x, s⟩
  · rw [readExponent_of_ne (by rintro ⟨⟩) (by rintro ⟨⟩)] at h
    obtain ⟨rfl, rfl⟩ := Prod.mk.inj (Except.ok.inj h)
    exact ⟨_, readExponent_of_ne hrest.head_ne.2.1 hrest.head_ne.2.2, rfl⟩
  by_cases hx : x = .char 'e' ∨ x = .char 'E'
  swap
  · rw [not_or] at hx
    rw [readExponent_of_ne (by simpa using hx.1) (by simpa using hx.2)] at h ⊢
    obtain ⟨rfl, rfl⟩ := Prod.mk.inj (Except.ok.inj h)
    exact ⟨_, rfl, rfl⟩
  obtain ⟨c, hc, rfl⟩ : ∃ c, (c = 'e' ∨ c = 'E') ∧ x = .char c := by
    rcases hx with rfl | rfl
    · exact ⟨_, .inl rfl, rfl⟩
    · exact ⟨_, .inr rfl, rfl⟩
  rw [readExponent, if_pos hc] at h
  rw [List.cons_append, readExponent, if_pos hc]
  rcases hd : readDigits (readSign s).2.input with e | ⟨found, r⟩ <;> dsimp only at h <;>
    rw [hd] at h
  · cases h
  obtain ⟨rfl, rfl⟩ := Prod.mk.inj (Except.ok.inj h)
  obtain ⟨r', heq, hsign, hinput⟩ := readSignedDigits_append hrest hd
  dsimp only
  rw [heq, hsign]
  exact ⟨_, rfl, hinput⟩

theorem readLiteral_append (hrest : EndsNumber rest) {negative : Bool} {l : Literal} {r : Rest s}
    (h : readLiteral negative s = .ok (l, r)) :
    ∃ r', readLiteral negative (s ++ rest) = .ok (l, r') ∧ r'.input = r.input ++ rest := by
  unfold readLiteral at h ⊢
  rcases hw : readWhole s with e | ⟨whole, ⟨s₁, h₁⟩⟩ <;> simp only [hw, ok_bind, error_bind] at h
  · cases h
  rcases hf : readFraction s₁ with e | ⟨fraction, ⟨s₂, h₂⟩⟩ <;>
    simp only [hf, ok_bind, error_bind] at h
  · cases h
  rcases he : readExponent s₂ with e | ⟨exponent, ⟨s₃, h₃⟩⟩ <;>
    simp only [he, ok_bind, error_bind] at h
  · cases h
  obtain ⟨rfl, rfl⟩ := Prod.mk.inj (Except.ok.inj h)
  obtain ⟨⟨_, h₁'⟩, hw', rfl⟩ := readWhole_append hrest.noDigit hw
  obtain ⟨⟨_, h₂'⟩, hf', rfl⟩ := readFraction_append hrest hf
  obtain ⟨⟨_, h₃'⟩, he', rfl⟩ := readExponent_append hrest he
  simp only [hw', hf', he', ok_bind]
  exact ⟨_, rfl, rfl⟩

/-- **A number is read in front of what ends it** as it is read alone. -/
theorem readNumber_append (hrest : EndsNumber rest) {negative : Bool} {n : Number} {r : Rest s}
    (h : readNumber negative s = .ok (n, r)) :
    ∃ r', readNumber negative (s ++ rest) = .ok (n, r') ∧ r'.input = r.input ++ rest := by
  unfold readNumber at h ⊢
  rcases hl : readLiteral negative s with e | ⟨l, r₁⟩ <;>
    simp only [hl, ok_bind, error_bind] at h
  · cases h
  rcases hn : l.number? with _ | found <;> simp only [hn] at h
  · cases h
  obtain ⟨rfl, rfl⟩ := Prod.mk.inj (Except.ok.inj h)
  obtain ⟨r', heq, hinput⟩ := readLiteral_append hrest hl
  simp only [heq, ok_bind, hn]
  exact ⟨_, rfl, hinput⟩

/-! ### Values that are numbers -/

theorem readScalar_minus (s : Input) : readScalar (.char '-' :: s) =
    (readNumber true s >>= fun p => .ok (.number p.1, p.2.after _)) := rfl

theorem readScalar_digit {c : Char} (hc : c.isDigit = true) (s : Input) :
    readScalar (.char c :: s) =
      (readNumber false (.char c :: s) >>= fun p => .ok (.number p.1, p.2)) := by
  have hne {d : Char} (hd : d.isDigit = false) : c ≠ d := by
    rintro rfl
    rw [hd] at hc
    cases hc
  unfold readScalar
  simp only [hne (d := 'n') rfl, hne (d := 't') rfl, hne (d := 'f') rfl, hne (d := '"') rfl,
    hne (d := '-') rfl, hc, if_true, if_false]

theorem head_of_readScalar {n : Number} {r : Rest s} (h : readScalar s = .ok (.number n, r)) :
    ∃ c s', s = .char c :: s' ∧ (c = '-' ∨ c.isDigit = true) := by
  rcases s with _ | ⟨c | b, s⟩
  · cases h
  swap
  · cases h
  refine ⟨c, s, rfl, ?_⟩
  by_contra hc
  rw [not_or] at hc
  unfold readScalar at h
  dsimp only at h
  simp only [hc.1, hc.2, if_false] at h
  split at h
  · rcases hw : readWord ['u', 'l', 'l'] s with e | t <;> rw [hw] at h <;> cases h
  split at h
  · rcases hw : readWord ['r', 'u', 'e'] s with e | t <;> rw [hw] at h <;> cases h
  split at h
  · rcases hw : readWord ['a', 'l', 's', 'e'] s with e | t <;> rw [hw] at h <;> cases h
  split at h
  · rcases hw : readString s with e | ⟨k, t⟩ <;> rw [hw] at h <;> cases h
  · cases h

theorem readScalar_append (hrest : EndsNumber rest) {n : Number} {r : Rest s}
    (h : readScalar s = .ok (.number n, r)) :
    ∃ r', readScalar (s ++ rest) = .ok (.number n, r') ∧ r'.input = r.input ++ rest := by
  obtain ⟨c, s, rfl, rfl | hc⟩ := head_of_readScalar h
  · rw [readScalar_minus] at h
    rw [List.cons_append, readScalar_minus]
    rcases hn : readNumber true s with e | ⟨found, r₁⟩ <;> rw [hn] at h
    · cases h
    obtain ⟨hfound, rfl⟩ := Prod.mk.inj (Except.ok.inj h)
    obtain rfl := Value.number.inj hfound
    obtain ⟨r', heq, hinput⟩ := readNumber_append hrest hn
    rw [heq]
    exact ⟨_, rfl, hinput⟩
  · rw [readScalar_digit hc] at h
    rw [List.cons_append, readScalar_digit hc]
    rcases hn : readNumber false (.char c :: s) with e | ⟨found, r₁⟩ <;> rw [hn] at h
    · cases h
    obtain ⟨hfound, rfl⟩ := Prod.mk.inj (Except.ok.inj h)
    obtain rfl := Value.number.inj hfound
    obtain ⟨r', (heq : readNumber false (.char c :: (s ++ rest)) = _), hinput⟩ :=
      readNumber_append hrest hn
    rw [heq]
    exact ⟨_, rfl, hinput⟩

/-! ### Integers -/

theorem readScalar_digits (hne : ds ≠ []) (hds : ∀ c ∈ ds, c.isDigit = true) :
    readScalar (ds.map .char) =
      (readNumber false (ds.map .char) >>= fun p => .ok (.number p.1, p.2)) := by
  rcases ds with _ | ⟨c, ds⟩
  · exact absurd rfl hne
  · exact readScalar_digit (hds c (List.mem_cons_self ..)) _

theorem spanDigits_digits (hds : ∀ c ∈ ds, c.isDigit = true) :
    (spanDigits (ds.map .char)).1 = ds ∧ (spanDigits (ds.map .char)).2.input = [] := by
  induction ds with
  | nil => exact ⟨rfl, rfl⟩
  | cons c ds ih =>
    obtain ⟨hdigits, hinput⟩ := ih fun x hx => hds x (List.mem_cons_of_mem c hx)
    have hc : digit? (.char c) = some c := if_pos (hds c (List.mem_cons_self ..))
    rw [List.map_cons]
    unfold spanDigits
    simp only [hc, hdigits]
    exact ⟨trivial, hinput⟩

theorem readDigits_digits (hne : ds ≠ []) (hds : ∀ c ∈ ds, c.isDigit = true) :
    ∃ r, readDigits (ds.map .char) = .ok (ds, r) ∧ r.input = [] := by
  rcases ds with _ | ⟨c, ds⟩
  · exact absurd rfl hne
  have hc : digit? (.char c) = some c := if_pos (hds c (List.mem_cons_self ..))
  obtain ⟨hdigits, hinput⟩ := spanDigits_digits fun x hx => hds x (List.mem_cons_of_mem c hx)
  rw [List.map_cons, readDigits_cons hc, hdigits]
  exact ⟨_, rfl, hinput⟩

theorem readWhole_digits (hne : ds ≠ []) (hds : ∀ c ∈ ds, c.isDigit = true)
    (halone : ds.head? = some '0' → ds = ['0']) :
    ∃ r, readWhole (ds.map .char) = .ok (ds, r) ∧ r.input = [] := by
  by_cases hzero : ds.head? = some '0'
  · rw [halone hzero]
    exact ⟨_, rfl, rfl⟩
  · rw [readWhole_of_ne]
    · exact readDigits_digits hne hds
    · rw [List.head?_map]
      rcases hhead : ds.head? with _ | c <;> rintro ⟨⟩
      exact hzero hhead

theorem head_toDigits {m : Nat} (hm : m ≠ 0) : (Nat.toDigits 10 m).head? ≠ some '0' := by
  induction m using Nat.strongRecOn with
  | _ m ih =>
    rw [Nat.toDigits_eq_if (by omega)]
    by_cases hlt : m < 10
    · rw [if_pos hlt]
      have hdigit : ∀ k < 10, k ≠ 0 → k.digitChar ≠ '0' := by decide
      exact fun h => hdigit m hlt hm (Option.some.inj h)
    · rw [if_neg hlt, List.head?_append, Option.or_of_isSome (by simp [Nat.toDigits_ne_nil])]
      exact ih (m / 10) (by omega) (by omega)

theorem readWhole_toDigits (m : Nat) :
    ∃ r, readWhole ((Nat.toDigits 10 m).map .char) = .ok (Nat.toDigits 10 m, r) ∧
      r.input = [] := by
  refine readWhole_digits Nat.toDigits_ne_nil
    (fun c hc => Nat.isDigit_of_mem_toDigits (by omega) (by omega) hc) fun hzero => ?_
  by_cases hm : m = 0
  · subst hm
    rfl
  · exact absurd hzero (head_toDigits hm)

theorem readLiteral_toDigits (negative : Bool) (m : Nat) :
    ∃ r, readLiteral negative ((Nat.toDigits 10 m).map .char) =
        .ok (⟨negative, Nat.toDigits 10 m, [], none⟩, r) ∧ r.input = [] := by
  obtain ⟨⟨left, hlt⟩, heq, hleft⟩ := readWhole_toDigits m
  obtain rfl : left = [] := hleft
  unfold readLiteral
  rw [heq]
  exact ⟨_, rfl, rfl⟩

theorem readNumber_toDigits (negative : Bool) (m : Nat) {n : Int} (fits : FitsWord n)
    (hn : n = if negative then -(m : Int) else m) (hzero : negative = true → m ≠ 0) :
    ∃ r, readNumber negative ((Nat.toDigits 10 m).map .char) = .ok (.integer n fits, r) ∧
      r.input = [] := by
  obtain ⟨r, heq, hr⟩ := readLiteral_toDigits negative m
  have hvalue : (Literal.mk negative (Nat.toDigits 10 m) [] none).value = m :=
    Nat.ofDigitChars_toDigits (by omega) (by omega)
  have hnumber : (Literal.mk negative (Nat.toDigits 10 m) [] none).number? =
      some (.integer n fits) := by
    subst hn
    unfold Literal.number?
    simp only [hvalue]
    rw [dif_pos ⟨rfl, fits, fun h => hzero h.1 h.2⟩]
  refine ⟨r, ?_, hr⟩
  unfold readNumber
  simp only [heq, ok_bind, hnumber]

end Json

/-- **The text of a number is read as that number**, with nothing left. -/
def Number.ReadsBack (n : Number) : Prop :=
  ∃ r, Json.readScalar ((Json.printNumber n).map .char) = .ok (.number n, r) ∧ r.input = []

namespace Json

theorem readsBack_integer (n : Int) (fits : FitsWord n) : (Number.integer n fits).ReadsBack := by
  by_cases hneg : n < 0
  · obtain ⟨r, heq, hr⟩ := readNumber_toDigits true n.natAbs fits
      (by rw [if_pos rfl]; omega) (by omega)
    have htext : printNumber (.integer n fits) = '-' :: Nat.toDigits 10 n.natAbs := if_pos hneg
    unfold Number.ReadsBack
    rw [htext, List.map_cons, readScalar_minus, heq]
    exact ⟨_, rfl, hr⟩
  · obtain ⟨r, heq, hr⟩ := readNumber_toDigits false n.natAbs fits
      (by rw [if_neg nofun]; omega) nofun
    have htext : printNumber (.integer n fits) = Nat.toDigits 10 n.natAbs := if_neg hneg
    unfold Number.ReadsBack
    rw [htext]
    have hdigits : ∀ c ∈ Nat.toDigits 10 n.natAbs, c.isDigit = true := fun c hc =>
      Nat.isDigit_of_mem_toDigits (by omega) (by omega) hc
    rw [readScalar_digits Nat.toDigits_ne_nil hdigits, heq]
    exact ⟨_, rfl, hr⟩

/-- **A number that reads back** is read in the middle of a text. -/
theorem readScalar_printNumber {n : Number} (hn : n.ReadsBack) (hrest : EndsNumber rest) :
    ∃ h, readScalar ((printNumber n).map .char ++ rest) = .ok (.number n, ⟨rest, h⟩) := by
  obtain ⟨⟨left, hlt⟩, heq, hleft⟩ := hn
  obtain rfl : left = [] := hleft
  obtain ⟨⟨left, hlt'⟩, heq', hleft⟩ := readScalar_append hrest heq
  obtain rfl : left = rest := hleft
  exact ⟨_, heq'⟩

end Json

end VersionedStore
