import Mathlib.Tactic.Common
import VersionedStore.Proofs.Json.Grammar
import VersionedStore.Proofs.Json.Reading

/-!
# Words and strings that are read

A word is read as it is printed.  A string is read as the text that its spelling stands for: its
escapes are undone one after another, up to the closing quotation mark.  A printed string is one of
the spellings of its text.

* `readWord_append`: a word is read in front of anything;
* `taken_readEscape_letter`, `taken_readEscape_alone`, `taken_readEscape_pair`: one escape is
  undone;
* `readString_spells`: a spelling is read as the text that it stands for, whatever follows it;
* `spells_escapeChars`, `readString_escapeChars`: a printed string is spelled, and so it is read.
-/

namespace VersionedStore.Json

open Text (Symbol)
open Grammar

variable {s s₁ : Input} {c : Char} {u k : List Char} {n : Nat}

theorem readWord_append (word : List Char) (s : Input) :
    ∃ h, readWord word (word.map .char ++ s) = .ok ⟨s, h⟩ := by
  induction word with
  | nil => exact ⟨Nat.le_refl _, rfl⟩
  | cons c word ih =>
    obtain ⟨hle, heq⟩ := ih
    refine ⟨Nat.le_succ_of_le hle, ?_⟩
    show readWord (c :: word) (.char c :: (word.map .char ++ s)) = _
    rw [readWord, if_pos rfl, heq]
    rfl

/-! ### Escapes -/

theorem hexValue?_of_mem {p : Char × Nat} (h : p ∈ hexDigits) : hexValue? p.1 = some p.2 := by
  have hall : ∀ p ∈ hexDigits, hexValue? p.1 = some p.2 := by decide
  exact hall p h

theorem simpleEscape?_of_mem {p : Char × Char} (h : p ∈ letters) :
    simpleEscape? p.1 = some p.2 ∧ p.1 ≠ 'u' := by
  have hall : ∀ p ∈ letters, simpleEscape? p.1 = some p.2 ∧ p.1 ≠ 'u' := by decide
  exact hall p h

theorem readHex_hex {u : List Char} {n : Nat} (h : Hex u n) (s : Input) :
    ∃ hlt, readHex (u.map .char ++ s) = .ok (n, ⟨s, hlt⟩) := by
  cases h with
  | @digits a b c d ha hb hc hd =>
    have hlt : s.length < (Symbol.char a.1 :: .char b.1 :: .char c.1 :: .char d.1 :: s).length := by
      simp only [List.length_cons]
      omega
    refine ⟨hlt, ?_⟩
    show readHex (.char a.1 :: .char b.1 :: .char c.1 :: .char d.1 :: s) = _
    rw [readHex, hexValue?_of_mem ha, hexValue?_of_mem hb, hexValue?_of_mem hc, hexValue?_of_mem hd]
    rfl

theorem taken_readEscape_letter {p : Char × Char} (h : p ∈ letters) (s : Input) :
    taken (readEscape (.char p.1 :: s)) = some (p.2, s) := by
  obtain ⟨hsimple, hu⟩ := simpleEscape?_of_mem h
  rw [readEscape.eq_3 _ _ hu, hsimple]
  rfl

theorem isLowSurrogate_iff : isLowSurrogate n = true ↔ 0xdc00 ≤ n ∧ n ≤ 0xdfff := by
  simp [isLowSurrogate]

theorem isHighSurrogate_iff : isHighSurrogate n = true ↔ 0xd800 ≤ n ∧ n ≤ 0xdbff := by
  simp [isHighSurrogate]

theorem taken_readEscape_alone (h : Hex u n) (hn : ¬ (0xd800 ≤ n ∧ n ≤ 0xdfff)) (s : Input) :
    taken (readEscape (.char 'u' :: (u.map .char ++ s))) = some (Char.ofNat n, s) := by
  obtain ⟨hlt, hread⟩ := readHex_hex h s
  rw [readEscape, readCodePoint, hread, ok_bind]
  dsimp only
  rw [if_neg (by rw [isLowSurrogate_iff]; omega), if_neg (by rw [isHighSurrogate_iff]; omega)]
  rfl

theorem taken_readEscape_low (h : Hex u n) (hn : 0xdc00 ≤ n ∧ n ≤ 0xdfff) (s : Input) :
    taken (readEscape (.char 'u' :: (u.map .char ++ s))) = none := by
  obtain ⟨hlt, hread⟩ := readHex_hex h s
  rw [readEscape, readCodePoint, hread, ok_bind]
  dsimp only
  rw [if_pos (isLowSurrogate_iff.mpr hn)]
  rfl

theorem taken_readEscape_high (h : Hex u n) (hn : 0xd800 ≤ n ∧ n ≤ 0xdbff) (s : Input) :
    taken (readEscape (.char 'u' :: (u.map .char ++ s))) =
      (taken (readLowSurrogate s)).map fun p => (pairChar n p.1, p.2) := by
  obtain ⟨hlt, hread⟩ := readHex_hex h s
  rw [readEscape, readCodePoint, hread, ok_bind]
  dsimp only
  rw [if_neg (by rw [isLowSurrogate_iff]; omega), if_pos (isHighSurrogate_iff.mpr hn)]
  rcases readLowSurrogate s with e | ⟨low, r⟩
  · rfl
  · simp only [ok_bind, taken_ok, Option.map_some]
    rfl

theorem taken_readLowSurrogate_unit (h : Hex u n) (s : Input) :
    taken (readLowSurrogate (.char '\\' :: .char 'u' :: (u.map .char ++ s))) =
      if 0xdc00 ≤ n ∧ n ≤ 0xdfff then some (n, s) else none := by
  obtain ⟨hlt, hread⟩ := readHex_hex h s
  rw [readLowSurrogate, hread, ok_bind]
  simp only [isLowSurrogate_iff]
  split <;> rfl

theorem taken_readEscape_pair {u' : List Char} {low : Nat} (h : Hex u n) (h' : Hex u' low)
    (hn : 0xd800 ≤ n ∧ n ≤ 0xdbff) (hlow : 0xdc00 ≤ low ∧ low ≤ 0xdfff) (s : Input) :
    taken (readEscape (.char 'u' ::
        (u.map .char ++ .char '\\' :: .char 'u' :: (u'.map .char ++ s)))) =
      some (pairChar n low, s) := by
  rw [taken_readEscape_high h hn, taken_readLowSurrogate_unit h', if_pos hlow]
  rfl

theorem taken_readLowSurrogate_of_ne (h : ∀ s', s ≠ .char '\\' :: .char 'u' :: s') :
    taken (readLowSurrogate s) = none := by
  unfold readLowSurrogate
  split
  · rfl
  · split
    · rfl
    · rename_i s'
      exact absurd rfl (h s')
    · rfl
  · rfl

/-! ### Strings -/

theorem taken_readBody_plain (hc : IsPlain c) (s : Input) :
    taken (readBody (.char c :: s)) = (taken (readBody s)).map fun p => (.char c :: p.1, p.2) := by
  have hcontrol : isControl (.char c) = false := decide_eq_false (Nat.not_lt.mpr hc.visible)
  rw [readBody.eq_4 (.char c) s (by rintro ⟨⟩; exact hc.ne_quote rfl)
    (by rintro ⟨⟩; exact hc.ne_backslash rfl),
    hcontrol, if_neg Bool.false_ne_true]
  rcases readBody s with e | r <;> rfl

theorem taken_readBody_escape (h : taken (readEscape s) = some (c, s₁)) :
    taken (readBody (.char '\\' :: s)) = (taken (readBody s₁)).map fun p =>
      (.char c :: p.1, p.2) := by
  obtain ⟨hlt, heq⟩ := taken_eq_some h
  rw [readBody, heq, ok_bind]
  dsimp only
  rcases readBody s₁ with e | r <;> rfl

theorem taken_readBody_escape_none (h : taken (readEscape s) = none) :
    taken (readBody (.char '\\' :: s)) = none := by
  obtain ⟨e, heq⟩ := taken_eq_none h
  rw [readBody, heq]
  rfl

theorem unitText_append (u k : List Char) (s : Input) : ('\\' :: 'u' :: (u ++ k)).map .char ++ s =
    .char '\\' :: .char 'u' :: (u.map .char ++ (k.map .char ++ s)) := by simp

theorem taken_readBody_spells {t : List Char} (h : Spells k t) (rest : Input) :
    taken (readBody (k.map .char ++ .char '"' :: rest)) = some (t.map .char, rest) := by
  induction h with
  | nil =>
    show taken (readBody (.char '"' :: rest)) = _
    rw [readBody]
    rfl
  | plain char _ ih =>
    rw [List.map_cons, List.cons_append, taken_readBody_plain char, ih]
    rfl
  | letter known _ ih =>
    rw [List.map_cons, List.map_cons, List.cons_append, List.cons_append,
      taken_readBody_escape (taken_readEscape_letter known _), ih]
    rfl
  | unit hex alone _ ih =>
    rw [unitText_append, taken_readBody_escape (taken_readEscape_alone hex alone _), ih]
    rfl
  | pair hex hex' first second _ ih =>
    rw [unitText_append, unitText_append,
      taken_readBody_escape (taken_readEscape_pair hex hex' first second _), ih]
    rfl

theorem mapM_char? (cs : List Char) : (cs.map Symbol.char).mapM Symbol.char? = some cs := by
  induction cs with
  | nil => rfl
  | cons c cs ih => simp [List.mapM_cons, Symbol.char?, ih]

/-- **A spelling is read as the text it stands for**, from the place after the opening quotation
mark. -/
theorem readString_spells {t : List Char} (h : Spells k t) (rest : Input) :
    ∃ h, readString (k.map .char ++ .char '"' :: rest) = .ok (String.ofList t, ⟨rest, h⟩) := by
  obtain ⟨hlt, heq⟩ := taken_eq_some (taken_readBody_spells h rest)
  refine ⟨hlt, ?_⟩
  unfold readString
  rw [heq, ok_bind]
  simp only [mapM_char?]

theorem isText_of_spells {t : List Char} (h : Spells k t) : IsText k := by
  induction h with
  | nil => exact .nil
  | plain char _ ih => exact .plain char ih
  | letter known _ ih => exact .letter known ih
  | unit hex _ _ ih => exact .unit hex ih
  | pair hex hex' _ _ _ ih => exact .unit hex (.unit hex' ih)

/-! ### Printed strings -/

theorem mem_hexDigits (n : Nat) : (hexDigit n, n % 16) ∈ hexDigits := by
  have hall : ∀ k < 16, (Nat.digitChar k, k) ∈ hexDigits := by decide
  exact hall (n % 16) (Nat.mod_lt _ (by omega))

theorem hex_control (hc : c.toNat < 0x20) :
    Hex ['0', '0', hexDigit (c.toNat / 16), hexDigit c.toNat] c.toNat := by
  have hzero : ('0', 0) ∈ hexDigits := by decide
  have hvalue : ((0 * 16 + 0) * 16 + c.toNat / 16 % 16) * 16 + c.toNat % 16 = c.toNat := by omega
  have hhex := Hex.digits hzero hzero (mem_hexDigits (c.toNat / 16)) (mem_hexDigits c.toNat)
  rwa [hvalue] at hhex

theorem spells_escapeChar (c : Char) {t : List Char} (h : Spells k t) :
    Spells (escapeChar c ++ k) (c :: t) := by
  have hletter {d : Char} (hd : (d, c) ∈ letters) : Spells ('\\' :: d :: k) (c :: t) := .letter hd h
  unfold escapeChar
  by_cases hquote : c = '"'
  · rw [if_pos hquote]
    exact hletter (by rw [hquote]; decide)
  rw [if_neg hquote]
  by_cases hslash : c = '\\'
  · rw [if_pos hslash]
    exact hletter (by rw [hslash]; decide)
  rw [if_neg hslash]
  by_cases hback : c = '\x08'
  · rw [if_pos hback]
    exact hletter (by rw [hback]; decide)
  rw [if_neg hback]
  by_cases hfeed : c = '\x0c'
  · rw [if_pos hfeed]
    exact hletter (by rw [hfeed]; decide)
  rw [if_neg hfeed]
  by_cases hline : c = '\n'
  · rw [if_pos hline]
    exact hletter (by rw [hline]; decide)
  rw [if_neg hline]
  by_cases hreturn : c = '\r'
  · rw [if_pos hreturn]
    exact hletter (by rw [hreturn]; decide)
  rw [if_neg hreturn]
  by_cases htab : c = '\t'
  · rw [if_pos htab]
    exact hletter (by rw [htab]; decide)
  rw [if_neg htab]
  by_cases hcontrol : c.toNat < 0x20
  · rw [if_pos hcontrol]
    have hunit := Spells.unit (hex_control hcontrol) (by omega) h
    rwa [Char.ofNat_toNat] at hunit
  · rw [if_neg hcontrol]
    exact .plain ⟨hquote, hslash, Nat.not_lt.mp hcontrol⟩ h

/-- **A printed string is spelled.** -/
theorem spells_escapeChars (t : List Char) : Spells (t.flatMap escapeChar) t := by
  induction t with
  | nil => exact .nil
  | cons c t ih => exact spells_escapeChar c ih

theorem isValue_printString (t : String) : IsValue (printString t) :=
  .string (isText_of_spells (spells_escapeChars t.toList))

/-- **A printed string is read**, from the place after its opening quotation mark. -/
theorem readString_escapeChars (t : String) (s : Input) :
    ∃ h, readString ((t.toList.flatMap escapeChar).map .char ++ .char '"' :: s) =
      .ok (t, ⟨s, h⟩) := by
  obtain ⟨hlt, heq⟩ := readString_spells (spells_escapeChars t.toList) s
  rw [String.ofList_toList] at heq
  exact ⟨hlt, heq⟩

end VersionedStore.Json
