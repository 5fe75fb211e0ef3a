import VersionedStore.Proofs.Json.RoundTrip

/-!
# Values that are passed over

A value that nobody wants is passed over on its syntax alone.  Every value of the grammar is,
whatever it holds and however deep it is nested: numbers need not have a value, and strings need not
be text.

* `left_skipNumber`, `left_skipString`: numbers and strings;
* `left_skipValueIn_..`, `left_skipContents_..`: one step of the loop over open brackets;
* `skips`: every phrase, by induction on the grammar;
* `left_skipValue`: a value in front of anything that ends a number.
-/

namespace VersionedStore.Json

open Text (Symbol)
open Grammar

/-! ### What is left -/

section Left

variable {s : Input}

/-- What a reading leaves, in plain view. -/
def left (r : Except ReadError (Rest s)) : Except ReadError Input := r.map Rest.input

/-- The same of a reading that may leave all. -/
def leftOver (r : Except ReadError (Tail s)) : Except ReadError Input := r.map Tail.input

theorem left_eq_ok {r : Except ReadError (Rest s)} {s' : Input} (h : left r = .ok s') :
    ∃ h, r = .ok ⟨s', h⟩ := by
  rcases r with e | ⟨input, hlt⟩
  · cases h
  · obtain rfl := Except.ok.inj h
    exact ⟨hlt, rfl⟩

end Left

variable {s s₁ s₂ rest : Input} {stack : List Bracket}

/-! ### Blanks and numbers -/

theorem Grammar.Blanks.blank (b : Blanks) : Blank (b.1.map .char) := by
  intro x hx
  obtain ⟨c, hc, rfl⟩ := List.mem_map.mp hx
  rcases b.2 c hc with rfl | rfl | rfl | rfl <;> rfl

theorem noDigit_of_exponent {cs : List Char} (h : Exponent cs) : NoDigit (cs.map .char) := by
  cases h with
  | absent => exact endsNumber_nil.noDigit
  | power letter =>
    rintro x ⟨⟩
    rcases letter with rfl | rfl <;> rfl

theorem readExponent_exponent {cs : List Char} (h : Exponent cs) :
    ∃ e t, readExponent (cs.map .char) = .ok (e, t) ∧ t.input = [] := by
  cases h with
  | absent => exact ⟨_, _, rfl, rfl⟩
  | @power e sign ds letter signed digits =>
    obtain ⟨r, hread, hr⟩ := readDigits_digits digits.ne_nil digits.digits
    have hsigned :
        ∃ minus t, readSign ((sign ++ ds).map .char) = (minus, t) ∧ t.input = ds.map .char := by
      rcases signed with rfl | rfl | rfl
      · refine ⟨_, _, readSign_of_ne ?_ ?_, rfl⟩
        all_goals
          rcases ds with _ | ⟨d, ds⟩
          · rintro ⟨⟩
          · rintro ⟨⟩
            exact absurd (digits.digits _ (List.mem_cons_self ..)) (by decide)
      · exact ⟨_, _, rfl, rfl⟩
      · exact ⟨_, _, rfl, rfl⟩
    obtain ⟨minus, ⟨t, ht⟩, hsign, htail⟩ := hsigned
    obtain rfl : t = _ := htail
    rw [List.map_cons, readExponent, if_pos letter, hsign]
    dsimp only
    rw [hread]
    exact ⟨_, _, rfl, hr⟩

theorem readFraction_fraction {f e : List Char} (hf : Fraction f) (he : Exponent e) :
    ∃ ds t, readFraction ((f ++ e).map .char) = .ok (ds, t) ∧ t.input = e.map .char := by
  cases hf with
  | absent =>
    refine ⟨_, _, readFraction_of_ne ?_, rfl⟩
    cases he with
    | absent => rintro ⟨⟩
    | power letter =>
      rcases letter with rfl | rfl <;> rintro ⟨⟩
  | point digits =>
    obtain ⟨r, hread, hr⟩ := readDigits_digits digits.ne_nil digits.digits
    obtain ⟨r', hread', hr'⟩ := readDigits_append (noDigit_of_exponent he) hread
    rw [hr, List.nil_append] at hr'
    rw [List.cons_append, List.map_cons, List.map_append, readFraction, hread']
    exact ⟨_, _, rfl, hr'⟩

theorem readLiteral_magnitude {cs : List Char} (h : IsMagnitude cs) (negative : Bool) :
    ∃ l r, readLiteral negative (cs.map .char) = .ok (l, r) ∧ r.input = [] := by
  cases h with
  | @parts w f e front middle back =>
    have hrest : NoDigit ((f ++ e).map .char) := by
      cases middle with
      | absent => exact noDigit_of_exponent back
      | point =>
        rintro x ⟨⟩
        rfl
    obtain ⟨r, hwhole, hr⟩ := readWhole_digits front.ne_nil front.digits front.alone
    obtain ⟨⟨s₁, h₁⟩, hwhole, hs₁⟩ := readWhole_append hrest hwhole
    rw [hr, List.nil_append] at hs₁
    obtain rfl : s₁ = _ := hs₁
    obtain ⟨ds, ⟨s₂, h₂⟩, hfraction, hs₂⟩ := readFraction_fraction middle back
    obtain rfl : s₂ = _ := hs₂
    obtain ⟨e', ⟨s₃, h₃⟩, hexponent, hs₃⟩ := readExponent_exponent back
    rw [List.map_append]
    unfold readLiteral
    simp only [hwhole, hfraction, hexponent, ok_bind]
    exact ⟨_, _, rfl, hs₃⟩

/-- A number is passed over in front of what ends it. -/
theorem left_skipNumber {cs : List Char} (h : IsMagnitude cs) (hrest : EndsNumber rest) :
    left (skipNumber (cs.map .char ++ rest)) = .ok rest := by
  obtain ⟨l, r, hread, hr⟩ := readLiteral_magnitude h false
  obtain ⟨r', hread', hr'⟩ := readLiteral_append hrest hread
  rw [hr, List.nil_append] at hr'
  unfold skipNumber
  rw [hread']
  exact congrArg Except.ok hr'

/-! ### Strings -/

theorem skipEscape_letter {p : Char × Char} (h : p ∈ letters) (s : Input) :
    left (skipEscape (.char p.1 :: s)) = .ok s := by
  obtain ⟨hsimple, hu⟩ := simpleEscape?_of_mem h
  rw [skipEscape.eq_3 _ _ hu, hsimple]
  rfl

theorem skipEscape_unit {u : List Char} {n : Nat} (h : Hex u n) (s : Input) :
    left (skipEscape (.char 'u' :: (u.map .char ++ s))) = .ok s := by
  obtain ⟨hlt, hread⟩ := readHex_hex h s
  rw [skipEscape, hread]
  rfl

theorem left_skipString_escape (h : left (skipEscape s) = .ok s₁) :
    left (skipString (.char '\\' :: s)) = left (skipString s₁) := by
  obtain ⟨hlt, heq⟩ := left_eq_ok h
  rw [skipString, heq, ok_bind]
  dsimp only
  rcases skipString s₁ with e | r <;> rfl

theorem left_skipString_plain {c : Char} (hc : IsPlain c) (s : Input) :
    left (skipString (.char c :: s)) = left (skipString s) := by
  have hcontrol : isControl (.char c) = false := decide_eq_false (Nat.not_lt.mpr hc.visible)
  rw [skipString.eq_4 (.char c) s (by rintro ⟨⟩; exact hc.ne_quote rfl)
    (by rintro ⟨⟩; exact hc.ne_backslash rfl),
    hcontrol, if_neg Bool.false_ne_true]
  rcases skipString s with e | r <;> rfl

/-- A string is passed over, whether or not it is text. -/
theorem left_skipString {cs : List Char} (h : IsText cs) (rest : Input) :
    left (skipString (cs.map .char ++ .char '"' :: rest)) = .ok rest := by
  induction h with
  | nil =>
    show left (skipString (.char '"' :: rest)) = _
    rw [skipString]
    rfl
  | plain char _ ih => exact (left_skipString_plain char _).trans ih
  | letter known _ ih => exact (left_skipString_escape (skipEscape_letter known _)).trans ih
  | unit hex _ ih =>
    rw [unitText_append]
    exact (left_skipString_escape (skipEscape_unit hex _)).trans ih

/-! ### Values without parts -/

theorem left_skipScalar_word {c : Char} {word : List Char} {v : Value}
    (hc : c ≠ '"' ∧ c ≠ '-' ∧ c.isDigit = false)
    (hread : ∀ s, readScalar (.char c :: s) =
      (readWord word s >>= fun t => .ok (v, t.after (.char c))))
    (rest : Input) : left (skipScalar ((c :: word).map .char ++ rest)) = .ok rest := by
  obtain ⟨hle, heq⟩ := readWord_append word rest
  show left (skipScalar (.char c :: (word.map .char ++ rest))) = _
  rw [skipScalar, if_neg hc.1, if_neg hc.2.1, hc.2.2, if_neg Bool.false_ne_true, hread, heq]
  rfl

theorem left_skipScalar_string {cs : List Char} (h : IsText cs) (rest : Input) :
    left (skipScalar (.char '"' :: (cs.map .char ++ .char '"' :: rest))) = .ok rest := by
  obtain ⟨hlt, heq⟩ := left_eq_ok (left_skipString h rest)
  rw [skipScalar, if_pos rfl, heq]
  rfl

theorem head_of_isMagnitude {cs : List Char} (h : IsMagnitude cs) :
    ∃ c cs', cs = c :: cs' ∧ c.isDigit = true := by
  cases h with
  | @parts w f e front =>
    rcases w with _ | ⟨c, w⟩
    · exact absurd rfl front.ne_nil
    · exact ⟨c, _, rfl, front.digits c (List.mem_cons_self ..)⟩

theorem head_of_isNumber {cs : List Char} (h : IsNumber cs) :
    ∃ c cs', cs = c :: cs' ∧ (c = '-' ∨ c.isDigit = true) := by
  cases h with
  | plain magnitude =>
    obtain ⟨c, cs, rfl, hc⟩ := head_of_isMagnitude magnitude
    exact ⟨c, cs, rfl, .inr hc⟩
  | minus => exact ⟨_, _, rfl, .inl rfl⟩

theorem beginsScalar_of_number {c : Char} (h : c = '-' ∨ c.isDigit = true) : BeginsScalar c := by
  rcases h with rfl | h
  · unfold BeginsScalar
    decide
  · exact beginsScalar_of_isDigit h

theorem left_skipScalar_number {cs : List Char} (h : IsNumber cs) (hrest : EndsNumber rest) :
    left (skipScalar (cs.map .char ++ rest)) = .ok rest := by
  cases h with
  | plain magnitude =>
    have hskip := left_skipNumber magnitude hrest
    obtain ⟨c, cs, rfl, hc⟩ := head_of_isMagnitude magnitude
    have hne {d : Char} (hd : d.isDigit = false) : c ≠ d := by
      rintro rfl
      rw [hd] at hc
      cases hc
    show left (skipScalar (.char c :: (cs.map .char ++ rest))) = _
    rw [skipScalar, if_neg (hne rfl), if_neg (hne rfl), if_pos hc]
    exact hskip
  | @minus cs magnitude =>
    obtain ⟨hlt, heq⟩ := left_eq_ok (left_skipNumber magnitude hrest)
    show left (skipScalar (.char '-' :: (cs.map .char ++ rest))) = _
    rw [skipScalar, if_neg (by decide), if_pos rfl, heq]
    rfl

/-! ### One step of the loop over open brackets -/

section Steps

variable {x : Symbol} {h : s₁.length < s.length} {opened : Bool}

theorem left_skipValueIn_square (hn : next? s = some (.char '[', ⟨s₁, h⟩)) :
    left (skipValueIn stack s) = leftOver (skipContents (.square :: stack) true s₁) := by
  rw [skipValueIn]
  simp only [hn]
  rcases skipContents (.square :: stack) true s₁ with e | t <;> rfl

theorem left_skipValueIn_curly (hn : next? s = some (.char '\x7b', ⟨s₁, h⟩)) :
    left (skipValueIn stack s) = leftOver (skipContents (.curly :: stack) true s₁) := by
  rw [skipValueIn]
  simp only [hn]
  rcases skipContents (.curly :: stack) true s₁ with e | t <;> rfl

theorem left_skipValueIn_scalar (hn : next? s = some (x, ⟨s₁, h⟩)) (hsquare : x ≠ .char '[')
    (hcurly : x ≠ .char '\x7b') (hskip : left (skipScalar (x :: s₁)) = .ok s₂) :
    left (skipValueIn stack s) = leftOver (skipContents stack false s₂) := by
  obtain ⟨hlt, heq⟩ := left_eq_ok hskip
  rw [skipValueIn, hn]
  split
  · contradiction
  · rename_i heq
    exact absurd (Prod.mk.inj (Option.some.inj heq)).1 hsquare
  · rename_i heq
    exact absurd (Prod.mk.inj (Option.some.inj heq)).1 hcurly
  · rename_i heq'
    obtain ⟨rfl, rfl⟩ := Prod.mk.inj (Option.some.inj heq')
    dsimp only [Rest.putBack]
    rw [heq, ok_bind]
    dsimp only
    rcases skipContents stack false s₂ with e | t <;> rfl

theorem leftOver_skipContents_closeSquare (hn : next? s = some (.char ']', ⟨s₁, h⟩)) :
    leftOver (skipContents (.square :: stack) opened s) =
      leftOver (skipContents stack false s₁) := by
  rw [skipContents]
  simp only [hn]
  rcases skipContents stack false s₁ with e | t <;> rfl

theorem leftOver_skipContents_closeCurly (hn : next? s = some (.char '\x7d', ⟨s₁, h⟩)) :
    leftOver (skipContents (.curly :: stack) opened s) =
      leftOver (skipContents stack false s₁) := by
  rw [skipContents]
  simp only [hn]
  rcases skipContents stack false s₁ with e | t <;> rfl

theorem leftOver_skipContents_item (hn : next? s = some (x, ⟨s₁, h⟩)) (hx : x ≠ .char ']') :
    leftOver (skipContents (.square :: stack) true s) =
      left (skipValueIn (.square :: stack) s) := by
  rw [skipContents]
  simp only [hn, if_true]
  rcases skipValueIn (.square :: stack) s with e | r <;> rfl

theorem leftOver_skipContents_nextItem (hn : next? s = some (.char ',', ⟨s₁, h⟩)) :
    leftOver (skipContents (.square :: stack) false s) =
      left (skipValueIn (.square :: stack) s₁) := by
  have hx : Symbol.char ',' ≠ .char ']' := by decide
  rw [skipContents]
  simp only [hn, Bool.false_eq_true, if_false, if_true]
  rcases skipValueIn (.square :: stack) s₁ with e | r <;> rfl

theorem leftOver_skipContents_member (hn : next? s = some (.char '"', ⟨s₁, h⟩))
    (hkey : left (skipKey s) = .ok s₂) :
    leftOver (skipContents (.curly :: stack) true s) = left (skipValueIn (.curly :: stack) s₂) := by
  obtain ⟨hlt, heq⟩ := left_eq_ok hkey
  rw [skipContents]
  simp only [hn, heq, ok_bind]
  rcases skipValueIn (.curly :: stack) s₂ with e | r <;> rfl

theorem leftOver_skipContents_nextMember (hn : next? s = some (.char ',', ⟨s₁, h⟩))
    (hkey : left (skipKey s₁) = .ok s₂) :
    leftOver (skipContents (.curly :: stack) false s) =
      left (skipValueIn (.curly :: stack) s₂) := by
  have hx : Symbol.char ',' ≠ .char '\x7d' := by decide
  obtain ⟨hlt, heq⟩ := left_eq_ok hkey
  rw [skipContents]
  simp only [hn, Bool.false_eq_true, if_false, if_true, heq, ok_bind]
  rcases skipValueIn (.curly :: stack) s₂ with e | r <;> rfl

end Steps

theorem left_skipKey {k : List Char} (hk : IsText k) (b₁ b₂ : Blanks) (rest : Input) :
    left (skipKey (b₁.1.map .char ++ .char '"' :: (k.map .char ++ .char '"' ::
      (b₂.1.map .char ++ .char ':' :: rest)))) = .ok rest := by
  obtain ⟨hlt, hn⟩ := next?_blank b₁.blank (x := .char '"') rfl
    (k.map .char ++ .char '"' :: (b₂.1.map .char ++ .char ':' :: rest))
  obtain ⟨hlt', hskip⟩ := left_eq_ok (left_skipString hk (b₂.1.map .char ++ .char ':' :: rest))
  obtain ⟨hlt'', hcolon⟩ := next?_blank b₂.blank (x := .char ':') rfl rest
  unfold skipKey
  simp only [hn, hskip, ok_bind]
  unfold readColon
  simp only [hcolon]
  rfl

/-! ### Every phrase -/

theorem between_append (c d : Char) (cs : List Char) (s : Input) :
    (c :: (cs ++ [d])).map .char ++ s = .char c :: (cs.map .char ++ .char d :: s) := by simp

theorem itemText_append (b : Blanks) (v : List Char) (b' : Blanks) (s : Input) :
    (b.1 ++ (v ++ b'.1)).map .char ++ s =
      b.1.map .char ++ (v.map .char ++ (b'.1.map .char ++ s)) := by
  simp

theorem memberText_append (b₁ : Blanks) (k : List Char) (b₂ b₃ : Blanks) (v : List Char)
    (b₄ : Blanks) (s : Input) :
    (Grammar.memberText b₁ k b₂ b₃ v b₄).map .char ++ s =
      b₁.1.map .char ++ .char '"' :: (k.map .char ++ .char '"' :: (b₂.1.map .char ++ .char ':' ::
        (b₃.1.map .char ++ (v.map .char ++ (b₄.1.map .char ++ s))))) := by
  simp [Grammar.memberText]

theorem head_of_isValue {v : List Char} (h : IsValue v) :
    ∃ c cs, v = c :: cs ∧ isSpace (.char c) = false ∧ c ≠ ']' := by
  cases h with
  | null | true | false | string | noItems | array | noMembers | object =>
    exact ⟨_, _, rfl, by decide, by decide⟩
  | number h =>
    obtain ⟨c, cs, rfl, hc⟩ := head_of_isNumber h
    obtain ⟨hspace, hclose, -⟩ := beginsScalar_of_number hc
    exact ⟨c, cs, rfl, hspace, hclose⟩

theorem next?_value {v : List Char} (h : IsValue v) (b : Blanks) (s : Input) :
    ∃ c s₁ h, next? (b.1.map .char ++ (v.map .char ++ s)) = some (.char c, ⟨s₁, h⟩) ∧ c ≠ ']' := by
  obtain ⟨c, cs, rfl, hspace, hclose⟩ := head_of_isValue h
  obtain ⟨hlt, hn⟩ := next?_blank b.blank hspace (cs.map .char ++ s)
  exact ⟨c, _, hlt, hn, hclose⟩

theorem next?_items {cs : List Char} (h : Phrase .items cs) (s : Input) :
    ∃ c s₁ h, next? (cs.map .char ++ s) = some (.char c, ⟨s₁, h⟩) ∧ c ≠ ']' := by
  cases h with
  | lastItem b b' h =>
    rw [itemText_append]
    exact next?_value h b _
  | item b b' h =>
    rw [List.map_append, List.append_assoc, itemText_append]
    exact next?_value h b _

theorem next?_members {cs : List Char} (h : Phrase .members cs) (s : Input) :
    ∃ s₁ h, next? (cs.map .char ++ s) = some (.char '"', ⟨s₁, h⟩) := by
  cases h with
  | lastMember b₁ b₂ b₃ b₄ =>
    rw [memberText_append]
    obtain ⟨hlt, hn⟩ := next?_blank b₁.blank (x := .char '"') rfl _
    exact ⟨_, hlt, hn⟩
  | member b₁ b₂ b₃ b₄ =>
    rw [List.map_append, List.append_assoc, memberText_append]
    obtain ⟨hlt, hn⟩ := next?_blank b₁.blank (x := .char '"') rfl _
    exact ⟨_, hlt, hn⟩

/-- **What passing over a phrase comes to**, whatever brackets are open: they are looked at again
after it.  The items of an array and the members of an object are passed over with the bracket that
closes them. -/
def Skips : Kind → List Char → Prop
  | .value, cs => ∀ ⦃bs rest : Input⦄ (stack : List Bracket), Blank bs → EndsNumber rest →
      left (skipValueIn stack (bs ++ (cs.map .char ++ rest))) =
        leftOver (skipContents stack false rest)
  | .items, cs => ∀ (stack : List Bracket) (rest : Input),
      left (skipValueIn (.square :: stack) (cs.map .char ++ .char ']' :: rest)) =
        leftOver (skipContents stack false rest)
  | .members, cs => ∀ (stack : List Bracket) (rest : Input), ∃ s,
      left (skipKey (cs.map .char ++ .char '\x7d' :: rest)) = .ok s ∧
        left (skipValueIn (.curly :: stack) s) = leftOver (skipContents stack false rest)

theorem skips_scalar {c : Char} {cs : List Char} (hspace : isSpace (.char c) = false)
    (hsquare : c ≠ '[') (hcurly : c ≠ '\x7b') (hskip : ∀ {rest}, EndsNumber rest →
      left (skipScalar ((c :: cs).map .char ++ rest)) = .ok rest) : Skips .value (c :: cs) := by
  intro bs rest stack hb hrest
  obtain ⟨hlt, hn⟩ := next?_blank hb hspace (cs.map .char ++ rest)
  exact left_skipValueIn_scalar hn (by simpa using hsquare) (by simpa using hcurly) (hskip hrest)

/-- **Every phrase is passed over**, by induction on it. -/
theorem skips {kind : Kind} {cs : List Char} (h : Phrase kind cs) : Skips kind cs := by
  induction h with
  | null => exact skips_scalar rfl (by decide) (by decide) fun _ =>
    left_skipScalar_word (by decide) (fun _ => rfl) _
  | true => exact skips_scalar rfl (by decide) (by decide) fun _ =>
    left_skipScalar_word (by decide) (fun _ => rfl) _
  | false => exact skips_scalar rfl (by decide) (by decide) fun _ =>
    left_skipScalar_word (by decide) (fun _ => rfl) _
  | number h =>
    have hskip {rest : Input} (hrest : EndsNumber rest) := left_skipScalar_number h hrest
    obtain ⟨c, cs, rfl, hc⟩ := head_of_isNumber h
    obtain ⟨hspace, -, hsquare, hcurly⟩ := beginsScalar_of_number hc
    exact skips_scalar hspace hsquare hcurly hskip
  | string h =>
    refine skips_scalar rfl (by decide) (by decide) fun {rest} _ => ?_
    rw [between_append]
    exact left_skipScalar_string h rest
  | noItems b =>
    intro bs rest stack hb _
    obtain ⟨hlt, hn⟩ := next?_blank hb (x := .char '[') rfl (b.1.map .char ++ .char ']' :: rest)
    obtain ⟨hlt', hn'⟩ := next?_blank b.blank (x := .char ']') rfl rest
    rw [between_append]
    exact (left_skipValueIn_square hn).trans (leftOver_skipContents_closeSquare hn')
  | @array cs h ih =>
    intro bs rest stack hb _
    obtain ⟨hlt, hn⟩ := next?_blank hb (x := .char '[') rfl (cs.map .char ++ .char ']' :: rest)
    obtain ⟨c, s₁, hlt', hn', hc⟩ := next?_items h (.char ']' :: rest)
    rw [between_append]
    exact (left_skipValueIn_square hn).trans
      ((leftOver_skipContents_item hn' (by simpa using hc)).trans (ih stack rest))
  | noMembers b =>
    intro bs rest stack hb _
    obtain ⟨hlt, hn⟩ :=
      next?_blank hb (x := .char '\x7b') rfl (b.1.map .char ++ .char '\x7d' :: rest)
    obtain ⟨hlt', hn'⟩ := next?_blank b.blank (x := .char '\x7d') rfl rest
    rw [between_append]
    exact (left_skipValueIn_curly hn).trans (leftOver_skipContents_closeCurly hn')
  | @object cs h ih =>
    intro bs rest stack hb _
    obtain ⟨hlt, hn⟩ :=
      next?_blank hb (x := .char '\x7b') rfl (cs.map .char ++ .char '\x7d' :: rest)
    obtain ⟨s₁, hlt', hn'⟩ := next?_members h (.char '\x7d' :: rest)
    obtain ⟨s, hkey, hvalue⟩ := ih stack rest
    rw [between_append]
    exact (left_skipValueIn_curly hn).trans ((leftOver_skipContents_member hn' hkey).trans hvalue)
  | @lastItem v b b' h ih =>
    intro stack rest
    obtain ⟨hlt, hn⟩ := next?_blank b'.blank (x := .char ']') rfl rest
    rw [itemText_append]
    exact (ih (.square :: stack) b.blank (endsNumber_blank b'.blank (.inr (.inl rfl)) rest)).trans
      (leftOver_skipContents_closeSquare hn)
  | @item v cs b b' h rest ih ihrest =>
    intro stack rest
    obtain ⟨hlt, hn⟩ :=
      next?_blank b'.blank (x := .char ',') rfl (cs.map .char ++ .char ']' :: rest)
    rw [List.map_append, List.append_assoc, itemText_append]
    exact (ih (.square :: stack) b.blank (endsNumber_blank b'.blank (.inl rfl) _)).trans
      ((leftOver_skipContents_nextItem hn).trans (ihrest stack rest))
  | @lastMember k v b₁ b₂ b₃ b₄ key h ih =>
    intro stack rest
    obtain ⟨hlt, hn⟩ := next?_blank b₄.blank (x := .char '\x7d') rfl rest
    rw [memberText_append]
    exact ⟨_, left_skipKey key b₁ b₂ _, (ih (.curly :: stack) b₃.blank
      (endsNumber_blank b₄.blank (.inr (.inr rfl)) rest)).trans
        (leftOver_skipContents_closeCurly hn)⟩
  | @member k v cs b₁ b₂ b₃ b₄ key h rest ih ihrest =>
    intro stack rest
    obtain ⟨s, hkey, hvalue⟩ := ihrest stack rest
    obtain ⟨hlt, hn⟩ :=
      next?_blank b₄.blank (x := .char ',') rfl (cs.map .char ++ .char '\x7d' :: rest)
    rw [List.map_append, List.append_assoc, memberText_append]
    exact ⟨_, left_skipKey key b₁ b₂ _, (ih (.curly :: stack) b₃.blank
      (endsNumber_blank b₄.blank (.inl rfl) _)).trans
        ((leftOver_skipContents_nextMember hn hkey).trans hvalue)⟩

/-- **A value of the grammar is passed over** in front of what ends a number. -/
theorem left_skipValue {v : List Char} (h : IsValue v) {bs : Input} (hb : Blank bs)
    (hrest : EndsNumber rest) :
    left (skipValue (bs ++ (v.map .char ++ rest))) = .ok rest := by
  refine (skips h [] hb hrest).trans ?_
  rw [skipContents]
  rfl

end VersionedStore.Json
