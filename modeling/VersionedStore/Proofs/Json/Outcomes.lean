import VersionedStore.Proofs.Json.Skipping

/-!
# What a value without parts is read as

The text of such a value is read as one value, or as none, whatever follows it.  Of strings this is
so because an escape never reaches past the closing quotation mark: half of a pair that stands alone
is refused there at the latest.

* `spells_or_unreadable`: what is spelled stands for a text, or it is not read;
* `ComesTo`: a text is read as a value, or as none, in front of all that ends it;
* `exists_readScalar`: this is so for every value without parts.
-/

namespace VersionedStore.Json

open Text (Symbol)
open Grammar

variable {s s₁ rest : Input} {c : Char} {u k : List Char} {n : Nat}

/-! ### Strings -/

/-- What stands between quotation marks and is no text. -/
def Unreadable (k : List Char) : Prop :=
  ∀ rest, taken (readBody (k.map .char ++ .char '"' :: rest)) = none

theorem Unreadable.readString (h : Unreadable k) (rest : Input) :
    ∃ e, readString (k.map .char ++ .char '"' :: rest) = .error e := by
  obtain ⟨e, heq⟩ := taken_eq_none (h rest)
  refine ⟨e, ?_⟩
  unfold Json.readString
  rw [heq]
  rfl

namespace Unreadable

variable {u' : List Char} {low : Nat}

theorem plain (char : IsPlain c) (h : Unreadable k) : Unreadable (c :: k) := by
  intro rest
  rw [List.map_cons, List.cons_append, taken_readBody_plain char, h rest]
  rfl

theorem letter {p : Char × Char} (known : p ∈ letters) (h : Unreadable k) :
    Unreadable ('\\' :: p.1 :: k) := by
  intro rest
  rw [List.map_cons, List.map_cons, List.cons_append, List.cons_append,
    taken_readBody_escape (taken_readEscape_letter known _), h rest]
  rfl

theorem unit (hex : Hex u n) (alone : ¬ (0xd800 ≤ n ∧ n ≤ 0xdfff)) (h : Unreadable k) :
    Unreadable ('\\' :: 'u' :: (u ++ k)) := by
  intro rest
  rw [unitText_append, taken_readBody_escape (taken_readEscape_alone hex alone _), h rest]
  rfl

theorem pair (hex : Hex u n) (hex' : Hex u' low) (first : 0xd800 ≤ n ∧ n ≤ 0xdbff)
    (second : 0xdc00 ≤ low ∧ low ≤ 0xdfff) (h : Unreadable k) :
    Unreadable ('\\' :: 'u' :: (u ++ '\\' :: 'u' :: (u' ++ k))) := by
  intro rest
  rw [unitText_append, unitText_append,
    taken_readBody_escape (taken_readEscape_pair hex hex' first second _), h rest]
  rfl

theorem second_first (hex : Hex u n) (second : 0xdc00 ≤ n ∧ n ≤ 0xdfff) (k : List Char) :
    Unreadable ('\\' :: 'u' :: (u ++ k)) := by
  intro rest
  rw [unitText_append]
  exact taken_readBody_escape_none (taken_readEscape_low hex second _)

theorem first_alone (hex : Hex u n) (first : 0xd800 ≤ n ∧ n ≤ 0xdbff)
    (h : ∀ rest s, k.map Symbol.char ++ .char '"' :: rest ≠ .char '\\' :: .char 'u' :: s) :
    Unreadable ('\\' :: 'u' :: (u ++ k)) := by
  intro rest
  rw [unitText_append]
  refine taken_readBody_escape_none ?_
  rw [taken_readEscape_high hex first, taken_readLowSurrogate_of_ne (h rest)]
  rfl

theorem first_before (hex : Hex u n) (hex' : Hex u' low) (first : 0xd800 ≤ n ∧ n ≤ 0xdbff)
    (h : ¬ (0xdc00 ≤ low ∧ low ≤ 0xdfff)) (k : List Char) :
    Unreadable ('\\' :: 'u' :: (u ++ '\\' :: 'u' :: (u' ++ k))) := by
  intro rest
  rw [unitText_append, unitText_append]
  refine taken_readBody_escape_none ?_
  rw [taken_readEscape_high hex first, taken_readLowSurrogate_unit hex', if_neg h]
  rfl

end Unreadable

/-- **What is spelled stands for a text, or it is not read.**  The induction is on the length, since
the two units of a pair are taken together. -/
theorem spells_or_unreadable (h : IsText k) : (∃ t, Spells k t) ∨ Unreadable k := by
  induction hlength : k.length using Nat.strongRecOn generalizing k with
  | _ m ih =>
    cases h with
    | nil => exact .inl ⟨[], .nil⟩
    | plain char hrest =>
      refine (ih _ ?_ hrest rfl).imp (fun h => h.elim fun t ht => ⟨_, .plain char ht⟩) (.plain char)
      simp only [← hlength, List.length_cons]
      omega
    | letter known hrest =>
      refine (ih _ ?_ hrest rfl).imp (fun h => h.elim fun t ht => ⟨_, .letter known ht⟩)
        (.letter known)
      simp only [← hlength, List.length_cons]
      omega
    | @unit u cs n hex hrest =>
      by_cases alone : ¬ (0xd800 ≤ n ∧ n ≤ 0xdfff)
      · refine (ih _ ?_ hrest rfl).imp (fun h => h.elim fun t ht => ⟨_, .unit hex alone ht⟩)
          (.unit hex alone)
        simp only [← hlength, List.length_cons, List.length_append]
        omega
      by_cases hhigh : n ≤ 0xdbff
      swap
      · exact .inr (.second_first hex (by omega) cs)
      -- the first unit of a pair: the second one is due
      have first : 0xd800 ≤ n ∧ n ≤ 0xdbff := by omega
      cases hrest with
      | nil => exact .inr (.first_alone hex first fun rest s => by simp)
      | plain char =>
        exact .inr (.first_alone hex first fun rest s h =>
          char.ne_backslash (by simpa using (List.cons.inj h).1))
      | letter known =>
        refine .inr (.first_alone hex first fun rest s h => (simpleEscape?_of_mem known).2 ?_)
        simpa using (List.cons.inj (List.cons.inj h).2).1
      | @unit u' cs low hex' hrest' =>
        by_cases second : 0xdc00 ≤ low ∧ low ≤ 0xdfff
        · refine (ih _ ?_ hrest' rfl).imp
            (fun h => h.elim fun t ht => ⟨_, .pair hex hex' first second ht⟩)
            (.pair hex hex' first second)
          simp only [← hlength, List.length_cons, List.length_append]
          omega
        · exact .inr (.first_before hex hex' first second cs)

/-! ### In front of all that ends it -/

section ComesTo

variable {α : Type} {value : Reader α} {cs : List Char}

/-- A text is read as the given value, or as none, in front of all that ends it. -/
def ComesTo (value : Reader α) (cs : List Char) (o : Option α) : Prop :=
  ∀ ⦃rest : Input⦄, EndsNumber rest →
    taken (value (cs.map .char ++ rest)) = o.map fun a => (a, rest)

theorem toOption_readAll {s : Input} : (readAll value s).toOption =
    (taken (value s)).bind fun p => if (next? p.2).isNone then some p.1 else none := by
  unfold readAll
  rcases value s with e | ⟨a, r⟩
  · rfl
  · rw [ok_bind, taken_ok, Option.bind_some]
    dsimp only
    split <;> rfl

theorem ComesTo.readAll {o : Option α} (h : ComesTo value cs o) :
    (readAll value (cs.map .char)).toOption = o := by
  have hread := h endsNumber_nil
  rw [List.append_nil] at hread
  rw [toOption_readAll, hread]
  cases o <;> rfl

end ComesTo

theorem comesTo_word {c : Char} {word : List Char} {v : Value}
    (hread : ∀ s, readScalar (.char c :: s) =
      (readWord word s >>= fun t => .ok (v, t.after (.char c)))) :
    ComesTo readScalar (c :: word) (some v) := by
  intro rest _
  obtain ⟨hle, heq⟩ := readWord_append word rest
  show taken (readScalar (.char c :: (word.map .char ++ rest))) = _
  rw [hread, heq]
  rfl

theorem exists_readString (h : IsText k) : ∃ o : Option String, ∀ rest,
    taken (readString (k.map .char ++ .char '"' :: rest)) = o.map fun t => (t, rest) := by
  rcases spells_or_unreadable h with ⟨t, ht⟩ | hn
  · refine ⟨some (String.ofList t), fun rest => ?_⟩
    obtain ⟨hlt, heq⟩ := readString_spells ht rest
    rw [heq]
    rfl
  · refine ⟨none, fun rest => ?_⟩
    obtain ⟨e, heq⟩ := hn.readString rest
    rw [heq]
    rfl

theorem taken_readScalar_string (s : Input) : taken (readScalar (.char '"' :: s)) =
    (taken (readString s)).map fun p => (.string p.1, p.2) := by
  rw [readScalar, if_neg (by decide), if_neg (by decide), if_neg (by decide), if_pos rfl]
  rcases readString s with e | ⟨t, r⟩ <;> rfl

theorem exists_readNumber {cs : List Char} (h : IsMagnitude cs) (negative : Bool) :
    ∃ o, ComesTo (readNumber negative) cs o := by
  obtain ⟨l, r, hread, hr⟩ := readLiteral_magnitude h negative
  refine ⟨l.number?, fun rest hrest => ?_⟩
  obtain ⟨r', hread', hr'⟩ := readLiteral_append hrest hread
  rw [hr, List.nil_append] at hr'
  unfold readNumber
  rw [hread', ok_bind]
  dsimp only
  rcases l.number? with _ | n
  · rfl
  · exact congrArg (fun s => some (n, s)) hr'

theorem taken_readScalar_digit (hc : c.isDigit = true) (s : Input) :
    taken (readScalar (.char c :: s)) =
    (taken (readNumber false (.char c :: s))).map fun p => (.number p.1, p.2) := by
  rw [readScalar_digit hc]
  rcases readNumber false (.char c :: s) with e | p <;> rfl

theorem taken_readScalar_minus (s : Input) : taken (readScalar (.char '-' :: s)) =
    (taken (readNumber true s)).map fun p => (.number p.1, p.2) := by
  rw [readScalar_minus]
  rcases readNumber true s with e | p <;> rfl

theorem exists_readScalar_number {cs : List Char} (h : IsNumber cs) :
    ∃ o, ComesTo readScalar cs o := by
  cases h with
  | plain magnitude =>
    obtain ⟨o, ho⟩ := exists_readNumber magnitude false
    obtain ⟨c, cs, rfl, hc⟩ := head_of_isMagnitude magnitude
    refine ⟨o.map .number, fun rest hrest => (taken_readScalar_digit hc _).trans ?_⟩
    refine (congrArg (Option.map _) (ho hrest)).trans ?_
    cases o <;> rfl
  | minus magnitude =>
    obtain ⟨o, ho⟩ := exists_readNumber magnitude true
    refine ⟨o.map .number, fun rest hrest => (taken_readScalar_minus _).trans ?_⟩
    refine (congrArg (Option.map _) (ho hrest)).trans ?_
    cases o <;> rfl

/-- **A value without parts is read as one value, or as none**, in front of all that ends it. -/
theorem exists_readScalar {v : List Char} (h : IsValue v) :
    (∃ c cs o, v = c :: cs ∧ BeginsScalar c ∧ ComesTo readScalar (c :: cs) o) ∨
      ∃ c cs, v = c :: cs ∧ (c = '[' ∨ c = '\x7b') := by
  cases h with
  | null => exact .inl ⟨_, _, _, rfl, by unfold BeginsScalar; decide, comesTo_word fun _ => rfl⟩
  | true => exact .inl ⟨_, _, _, rfl, by unfold BeginsScalar; decide, comesTo_word fun _ => rfl⟩
  | false => exact .inl ⟨_, _, _, rfl, by unfold BeginsScalar; decide, comesTo_word fun _ => rfl⟩
  | number h =>
    obtain ⟨o, ho⟩ := exists_readScalar_number h
    obtain ⟨c, cs, rfl, hc⟩ := head_of_isNumber h
    exact .inl ⟨c, cs, o, rfl, beginsScalar_of_number hc, ho⟩
  | string h =>
    obtain ⟨o, ho⟩ := exists_readString h
    refine .inl ⟨_, _, o.map .string, rfl, by unfold BeginsScalar; decide, fun rest _ => ?_⟩
    rw [between_append, taken_readScalar_string, ho]
    cases o <;> rfl
  | noItems | array => exact .inr ⟨_, _, rfl, .inl rfl⟩
  | noMembers | object => exact .inr ⟨_, _, rfl, .inr rfl⟩

end VersionedStore.Json
