import VersionedStore.Config
import VersionedStore.Proofs.Json.Outcomes

/-!
# What a field of a configuration is read as

The text of a value is read as one field, or as none: neither the blanks in front of it nor what
follows it make a difference.

* `Takes`: a text is read as a field, or as none, wherever it stands;
* `exists_takes_typed`, `exists_takes_policy`: this is so for every value, whichever field is
  wanted;
* `takes_text`, `takes_flag`, `takes_policyName`: the fields as they are printed.
-/

namespace VersionedStore.Config

open Json Json.Grammar
open Text (Symbol)

variable {α : Type} {value : Reader α} {v k : List Char} {o : Option α} {s s₁ : Input} {x : Symbol}

/-- A text is read as the given field, or as none, behind any blanks and in front of all that ends
it. -/
def Takes (value : Reader α) (v : List Char) (o : Option α) : Prop :=
  ∀ (b : Blanks) ⦃rest : Input⦄, EndsNumber rest →
    taken (value (b.1.map .char ++ (v.map .char ++ rest))) = o.map fun a => (a, rest)

theorem Takes.readAll (h : Takes value v o) : (readAll value (v.map .char)).toOption = o :=
  ComesTo.readAll fun _ hrest => h noBlanks hrest

theorem taken_readAfterColon (value : Reader α) (b : Blanks) (s : Input) :
    taken (readAfterColon value (b.1.map .char ++ .char ':' :: s)) = taken (value s) := by
  obtain ⟨hlt, hn⟩ := next?_blank b.blank (x := .char ':') rfl s
  unfold readAfterColon readColon
  simp only [hn, ok_bind]
  rcases value s with e | ⟨a, r⟩ <;> rfl

/-! ### Values of one kind -/

section Typed

variable {expected : String} {pick : Value → Option α} {h : s₁.length < s.length}

theorem taken_readTyped_bracket (hn : next? s = some (x, ⟨s₁, h⟩))
    (hx : x = .char '[' ∨ x = .char '\x7b') :
    taken (readTyped expected pick s) = none := by
  unfold readTyped
  rcases hx with rfl | rfl <;> simp only [hn] <;> rfl

theorem taken_readTyped_scalar (hn : next? s = some (x, ⟨s₁, h⟩)) (hsquare : x ≠ .char '[')
    (hcurly : x ≠ .char '\x7b') : taken (readTyped expected pick s) =
      (taken (readScalar (x :: s₁))).bind fun p => (pick p.1).map fun a => (a, p.2) := by
  unfold readTyped
  rw [hn]
  split
  · contradiction
  · rename_i heq
    exact absurd (Prod.mk.inj (Option.some.inj heq)).1 hsquare
  · rename_i heq
    exact absurd (Prod.mk.inj (Option.some.inj heq)).1 hcurly
  · rename_i heq
    obtain ⟨rfl, rfl⟩ := Prod.mk.inj (Option.some.inj heq)
    dsimp only [Rest.putBack]
    rcases readScalar (x :: s₁) with e | ⟨v, r⟩
    · rfl
    · rw [ok_bind, taken_ok, Option.bind_some]
      dsimp only
      rcases pick v with _ | a <;> rfl

theorem takes_typed {c : Char} {cs : List Char} (hc : BeginsScalar c) {o : Option Value}
    (h : ComesTo readScalar (c :: cs) o) :
    Takes (readTyped expected pick) (c :: cs) (o.bind pick) := by
  obtain ⟨hspace, -, hsquare, hcurly⟩ := hc
  intro b rest hrest
  obtain ⟨hlt, hn⟩ := next?_blank b.blank hspace (cs.map .char ++ rest)
  refine (taken_readTyped_scalar hn (by simpa using hsquare) (by simpa using hcurly)).trans ?_
  refine (congrArg (Option.bind · _) (h hrest)).trans ?_
  cases o <;> rfl

theorem exists_takes_typed (expected : String) (pick : Value → Option α) (h : IsValue v) :
    ∃ o, Takes (readTyped expected pick) v o := by
  rcases exists_readScalar h with ⟨c, cs, o, rfl, hc, ho⟩ | ⟨c, cs, rfl, hc⟩
  · exact ⟨_, takes_typed hc ho⟩
  · refine ⟨none, fun b rest _ => ?_⟩
    have hspace : isSpace (.char c) = false := by rcases hc with rfl | rfl <;> rfl
    obtain ⟨hlt, hn⟩ := next?_blank b.blank hspace (cs.map .char ++ rest)
    exact taken_readTyped_bracket hn (hc.imp (congrArg _) (congrArg _))

end Typed

theorem comesTo_string {t : List Char} (h : Spells k t) :
    ComesTo readScalar ('"' :: (k ++ ['"'])) (some (.string (String.ofList t))) := by
  intro rest _
  obtain ⟨hlt, heq⟩ := readString_spells h rest
  rw [between_append, taken_readScalar_string, heq]
  rfl

theorem takes_text {t : List Char} (h : Spells k t) :
    Takes readText ('"' :: (k ++ ['"'])) (some (String.ofList t)) :=
  takes_typed (by unfold BeginsScalar; decide) (comesTo_string h)

theorem takes_flag : (b : Bool) → Takes readFlag (printBool b) (some b)
  | true =>
    takes_typed (o := some (.bool true)) (by unfold BeginsScalar; decide)
      (comesTo_word fun _ => rfl)
  | false =>
    takes_typed (o := some (.bool false)) (by unfold BeginsScalar; decide)
      (comesTo_word fun _ => rfl)

/-! ### Policies -/

section Policy

variable {h : s₁.length < s.length}

theorem taken_readPolicyName (s : Input) : taken (readPolicyName s) =
    (taken (readString s)).bind fun p => (policyOfName p.1).toOption.map fun q => (q, p.2) := by
  unfold readPolicyName
  rcases readString s with e | ⟨name, r⟩
  · rfl
  · rw [ok_bind, taken_ok, Option.bind_some]
    dsimp only
    rcases policyOfName name with e | q <;> rfl

theorem exists_readPolicyName (h : IsText k) : ∃ o : Option OnFault, ∀ rest,
    taken (readPolicyName (k.map .char ++ .char '"' :: rest)) = o.map fun q => (q, rest) := by
  obtain ⟨o, ho⟩ := exists_readString h
  refine ⟨o.bind fun name => (policyOfName name).toOption, fun rest => ?_⟩
  rw [taken_readPolicyName, ho]
  cases o <;> rfl

theorem taken_readPolicy_name (hn : next? s = some (.char '"', ⟨s₁, h⟩)) :
    taken (readPolicy s) = taken (readPolicyName s₁) := by
  unfold readPolicy
  simp only [hn]
  rcases readPolicyName s₁ with e | ⟨q, r⟩ <;> rfl

theorem taken_readPolicy_object (hn : next? s = some (.char '\x7b', ⟨s₁, h⟩)) :
    taken (readPolicy s) = taken (readPolicyObject s₁) := by
  unfold readPolicy
  simp only [hn]
  rcases readPolicyObject s₁ with e | ⟨q, r⟩ <;> rfl

theorem taken_readPolicy_other (hn : next? s = some (x, ⟨s₁, h⟩)) (hquote : x ≠ .char '"')
    (hcurly : x ≠ .char '\x7b') : taken (readPolicy s) = none := by
  unfold readPolicy
  rw [hn]
  split
  · contradiction
  · rename_i heq
    exact absurd (Prod.mk.inj (Option.some.inj heq)).1 hquote
  · rename_i heq
    exact absurd (Prod.mk.inj (Option.some.inj heq)).1 hcurly
  · rfl

/-- What follows the bracket that closes an object, if it comes next. -/
def afterClosing (s : Input) : Option Input :=
  (next? s).bind fun p => if p.1 = .char '\x7d' then some p.2.input else none

theorem afterClosing_close (b : Blanks) (s : Input) :
    afterClosing (b.1.map .char ++ .char '\x7d' :: s) = some s := by
  obtain ⟨hlt, hn⟩ := next?_blank b.blank (x := .char '\x7d') rfl s
  unfold afterClosing
  rw [hn]
  rfl

theorem afterClosing_comma (b : Blanks) (s : Input) :
    afterClosing (b.1.map .char ++ .char ',' :: s) = none := by
  obtain ⟨hlt, hn⟩ := next?_blank b.blank (x := .char ',') rfl s
  unfold afterClosing
  rw [hn]
  rfl

theorem toOption_readPolicyEnd (s : Input) : (left (readPolicyEnd s)).toOption =
    (taken (readAfterColon (readTyped "unit" pickNull) s)).bind fun p => afterClosing p.2 := by
  unfold readPolicyEnd
  rcases readAfterColon (readTyped "unit" pickNull) s with e | ⟨a, r⟩
  · rfl
  · rw [ok_bind, taken_ok, Option.bind_some]
    dsimp only
    unfold afterClosing
    split
    · rename_i hn
      rw [hn]
      rfl
    · rename_i hn
      rw [hn]
      rfl
    · rename_i p hp hn
      rw [hn, Option.bind_some, if_neg fun h => hp p.2 (Prod.ext h rfl)]
      rfl

theorem taken_readPolicyObject (hn : next? s = some (.char '"', ⟨s₁, h⟩)) :
    taken (readPolicyObject s) = (taken (readPolicyName s₁)).bind fun p =>
      (left (readPolicyEnd p.2)).toOption.map fun t => (p.1, t) := by
  unfold readPolicyObject
  simp only [hn]
  rcases readPolicyName s₁ with e | ⟨q, r⟩
  · rfl
  · rw [ok_bind, taken_ok, Option.bind_some]
    dsimp only
    rcases readPolicyEnd r.input with e | t <;> rfl

theorem exists_readPolicyMember (key : IsText k) (h : IsValue v) (b₁ b₂ b₃ b₄ : Blanks) :
    ∃ o : Option OnFault, ∀ {s : Input}, EndsNumber (b₄.1.map .char ++ s) →
      taken (readPolicyObject ((Grammar.memberText b₁ k b₂ b₃ v b₄).map .char ++ s)) =
        o.bind fun q => (afterClosing (b₄.1.map .char ++ s)).map fun t => (q, t) := by
  obtain ⟨o, ho⟩ := exists_readPolicyName key
  obtain ⟨unit, hunit⟩ := exists_takes_typed "unit" pickNull h
  refine ⟨o.bind fun q => unit.map fun _ => q, fun {s} hs => ?_⟩
  rw [memberText_append]
  obtain ⟨hlt, hn⟩ := next?_blank b₁.blank (x := .char '"') rfl _
  rw [taken_readPolicyObject hn, ho]
  rcases o with _ | q
  · rfl
  rw [Option.map_some, Option.bind_some, toOption_readPolicyEnd, taken_readAfterColon, hunit b₃ hs]
  rcases unit with _ | u <;> rfl

theorem exists_readPolicyObject {cs : List Char} (h : Phrase .members cs) :
    ∃ o : Option OnFault, ∀ rest,
      taken (readPolicyObject (cs.map .char ++ .char '\x7d' :: rest)) =
        o.map fun q => (q, rest) := by
  cases h with
  | lastMember b₁ b₂ b₃ b₄ key h =>
    obtain ⟨o, ho⟩ := exists_readPolicyMember key h b₁ b₂ b₃ b₄
    refine ⟨o, fun rest => ?_⟩
    rw [ho (endsNumber_blank b₄.blank (.inr (.inr rfl)) rest), afterClosing_close]
    cases o <;> rfl
  | member b₁ b₂ b₃ b₄ key h =>
    obtain ⟨o, ho⟩ := exists_readPolicyMember key h b₁ b₂ b₃ b₄
    refine ⟨none, fun rest => ?_⟩
    rw [List.map_append, List.map_cons, List.append_assoc, List.cons_append,
      ho (endsNumber_blank b₄.blank (.inl rfl) _), afterClosing_comma]
    cases o <;> rfl

theorem takes_policy_other {c : Char} {cs : List Char} (hspace : isSpace (.char c) = false)
    (hquote : c ≠ '"') (hcurly : c ≠ '\x7b') : Takes readPolicy (c :: cs) none := by
  intro b rest _
  obtain ⟨hlt, hn⟩ := next?_blank b.blank hspace (cs.map .char ++ rest)
  exact taken_readPolicy_other hn (by simpa using hquote) (by simpa using hcurly)

theorem exists_takes_policy (h : IsValue v) : ∃ o, Takes readPolicy v o := by
  cases h with
  | null | true | false | noItems | array =>
    exact ⟨none, takes_policy_other rfl (by decide) (by decide)⟩
  | number h =>
    obtain ⟨c, cs, rfl, hc⟩ := head_of_isNumber h
    obtain ⟨hspace, -, -, hcurly⟩ := beginsScalar_of_number hc
    refine ⟨none, takes_policy_other hspace ?_ hcurly⟩
    rintro rfl
    rcases hc with hc | hc <;> cases hc
  | string h =>
    obtain ⟨o, ho⟩ := exists_readPolicyName h
    refine ⟨o, fun b rest _ => ?_⟩
    rw [between_append]
    obtain ⟨hlt, hn⟩ := next?_blank b.blank (x := .char '"') rfl _
    rw [taken_readPolicy_name hn, ho]
  | noMembers b =>
    refine ⟨none, fun b' rest _ => ?_⟩
    rw [between_append]
    obtain ⟨hlt, hn⟩ := next?_blank b'.blank (x := .char '\x7b') rfl _
    obtain ⟨hlt', hn'⟩ := next?_blank b.blank (x := .char '\x7d') rfl rest
    rw [taken_readPolicy_object hn]
    unfold readPolicyObject
    simp only [hn']
    rfl
  | object h =>
    obtain ⟨o, ho⟩ := exists_readPolicyObject h
    refine ⟨o, fun b rest _ => ?_⟩
    rw [between_append]
    obtain ⟨hlt, hn⟩ := next?_blank b.blank (x := .char '\x7b') rfl _
    rw [taken_readPolicy_object hn, ho]

theorem takes_policyName {t : List Char} (h : Spells k t) :
    Takes readPolicy ('"' :: (k ++ ['"'])) (policyOfName (String.ofList t)).toOption := by
  intro b rest _
  rw [between_append]
  obtain ⟨hlt, hn⟩ := next?_blank b.blank (x := .char '"') rfl _
  obtain ⟨hlt', heq⟩ := readString_spells h rest
  rw [taken_readPolicy_name hn, taken_readPolicyName, heq]
  rfl

end Policy

end VersionedStore.Config
