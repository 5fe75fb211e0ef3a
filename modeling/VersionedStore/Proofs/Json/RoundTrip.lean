import VersionedStore.Proofs.Json.Reading
import VersionedStore.Proofs.Json.Strings
import VersionedStore.Proofs.Json.Values

/-!
# Printed values are read back

The printed text of a value is read as that value, whatever follows it, if there is room for the
brackets that it opens; if not, it is found to be too deep.  Printing knows no such limit.

* `DoublesReadBack`: the doubles inside a value are read back from their texts;
* `Echoes`, `echoes`: a value is read back, or too deep, in the middle of a text;
* `readDocument_pretty`: the same for a whole text.
-/

namespace VersionedStore

namespace Value

/-- All doubles inside a value are read back from their texts. -/
def DoublesReadBack (v : Value) : Prop :=
  ∀ x, Within (.number (.double x)) v → (Number.double x).ReadsBack

theorem doublesReadBack_array {items : List Value} (h : ∀ w ∈ items, w.DoublesReadBack) :
    (array items).DoublesReadBack := by
  intro x hx
  cases hx with
  | item mem hw => exact h _ mem x hw

theorem doublesReadBack_object {members : List (String × Value)}
    (h : ∀ e ∈ members, e.2.DoublesReadBack) : (object members).DoublesReadBack := by
  intro x hx
  cases hx with
  | member mem hw => exact h _ mem x hw

theorem doublesReadBack_integer (n : Int) (fits : FitsWord n) :
    (number (.integer n fits)).DoublesReadBack := by
  intro x hx
  cases hx

end Value

namespace Json

open Text (Symbol)

/-! ### Values without parts -/

/-- **A value whose text is read back**, after any blanks and before anything that ends a number:
the value comes of it, or it is too deep. -/
structure Echoes (v : Value) : Prop where
  head : ∀ level, ∃ c cs, prettyChars level v = c :: cs ∧ isSpace (.char c) = false ∧ c ≠ ']'
  read : ∀ (room level : Nat) {bs rest : Input}, Blank bs → EndsNumber rest →
    seen (readValue room (bs ++ ((prettyChars level v).map .char ++ rest))) =
      if v.depth ≤ room then .ok (v, rest) else .error .tooDeep

/-- A character that a value without parts can begin with. -/
def BeginsScalar (c : Char) : Prop :=
  isSpace (.char c) = false ∧ c ≠ ']' ∧ c ≠ '[' ∧ c ≠ '\x7b'

theorem beginsScalar_of_isDigit {c : Char} (hc : c.isDigit = true) : BeginsScalar c := by
  have hne {d : Char} (hd : d.isDigit = false) : c ≠ d := by
    rintro rfl
    rw [hd] at hc
    cases hc
  refine ⟨?_, hne rfl, hne rfl, hne rfl⟩
  simp [isSpace, hne (d := ' ') rfl, hne (d := '\n') rfl, hne (d := '\t') rfl,
    hne (d := '\r') rfl]

theorem echoes_scalar {v : Value} (hv : v.depth = 0) (c : Char) (cs : List Char)
    (htext : ∀ level, prettyChars level v = c :: cs) (hc : BeginsScalar c)
    (hread : ∀ rest, EndsNumber rest →
      ∃ h, readScalar ((c :: cs).map .char ++ rest) = .ok (v, ⟨rest, h⟩)) : Echoes v := by
  obtain ⟨hspace, hclose, hsquare, hcurly⟩ := hc
  refine ⟨fun level => ⟨c, cs, htext level, hspace, hclose⟩, fun room level bs rest hb hrest => ?_⟩
  obtain ⟨hlt, hscalar⟩ := hread rest hrest
  rw [htext, hv, if_pos (Nat.zero_le _), List.map_cons, List.cons_append]
  obtain ⟨hlt', hn⟩ := next?_blank hb hspace (cs.map .char ++ rest)
  rw [seen_readValue_scalar hn (by simpa using hsquare) (by simpa using hcurly)]
  exact congrArg seen hscalar

theorem echoes_word {v : Value} (hv : v.depth = 0) (c : Char) (word : List Char)
    (htext : ∀ level, prettyChars level v = c :: word) (hc : BeginsScalar c)
    (hread : ∀ s, readScalar (.char c :: s) =
      (readWord word s >>= fun t => .ok (v, t.after (.char c)))) : Echoes v := by
  refine echoes_scalar hv c word htext hc fun rest _ => ?_
  obtain ⟨hle, heq⟩ := readWord_append word rest
  refine ⟨Nat.lt_succ_of_le hle, ?_⟩
  show readScalar (.char c :: (word.map .char ++ rest)) = _
  rw [hread, heq]
  rfl

theorem echoes_null : Echoes .null :=
  echoes_word rfl 'n' ['u', 'l', 'l'] (fun _ => rfl) (by unfold BeginsScalar; decide) fun _ => rfl

theorem echoes_bool : (b : Bool) → Echoes (.bool b)
  | true => echoes_word rfl 't' ['r', 'u', 'e'] (fun _ => rfl) (by unfold BeginsScalar; decide)
    fun _ => rfl
  | false => echoes_word rfl 'f' ['a', 'l', 's', 'e'] (fun _ => rfl)
    (by unfold BeginsScalar; decide) fun _ => rfl

theorem echoes_number {n : Number} (hn : n.ReadsBack) : Echoes (.number n) := by
  obtain ⟨r, heq, hr⟩ := hn
  obtain ⟨c, s, htext, hc⟩ := head_of_readScalar heq
  obtain ⟨c', cs, hcs, hc', -⟩ := List.map_eq_cons_iff.mp htext
  obtain rfl := Symbol.char.inj hc'
  refine echoes_scalar rfl c' cs (fun _ => hcs) ?_ fun rest hrest => ?_
  · rcases hc with rfl | hc
    · unfold BeginsScalar
      decide
    · exact beginsScalar_of_isDigit hc
  · rw [← hcs]
    exact readScalar_printNumber ⟨r, heq, hr⟩ hrest

theorem echoes_string (t : String) : Echoes (.string t) := by
  refine echoes_scalar rfl '"' (t.toList.flatMap escapeChar ++ ['"']) (fun _ => rfl)
    (by unfold BeginsScalar; decide) fun rest _ => ?_
  obtain ⟨hlt, heq⟩ := readString_escapeChars t rest
  have htext : ('"' :: (t.toList.flatMap escapeChar ++ ['"'])).map Symbol.char ++ rest =
      .char '"' :: ((t.toList.flatMap escapeChar).map .char ++ .char '"' :: rest) := by simp
  rw [htext]
  refine ⟨Nat.lt_succ_of_lt hlt, ?_⟩
  rw [readScalar, if_neg (by decide), if_neg (by decide), if_neg (by decide), if_pos rfl, heq]
  rfl

/-! ### Arrays -/

/-- What is printed after the first item of an array. -/
def moreItems (level : Nat) : List Value → List Char
  | [] => []
  | v :: vs => ',' :: (newLine level ++ (prettyChars level v ++ moreItems level vs))

theorem prettyItems_cons (level : Nat) (v : Value) (vs : List Value) :
    prettyItems level (v :: vs) = newLine level ++ (prettyChars level v ++ moreItems level vs) := by
  induction vs generalizing v with
  | nil => simp [prettyItems, moreItems]
  | cons w ws ih => simp [prettyItems, moreItems, ih]

theorem moreItems_append (level : Nat) (v : Value) (vs : List Value) (s : Input) :
    (moreItems level (v :: vs)).map .char ++ s = .char ',' :: ((newLine level).map .char ++
      ((prettyChars level v).map .char ++ ((moreItems level vs).map .char ++ s))) := by
  simp [moreItems]

theorem Echoes.next? {v : Value} (h : Echoes v) (level : Nat) {bs : Input} (hb : Blank bs)
    (s : Input) : ∃ c s' h, (prettyChars level v).map .char ++ s = .char c :: s' ∧ c ≠ ']' ∧
      Json.next? (bs ++ ((prettyChars level v).map .char ++ s)) = some (.char c, ⟨s', h⟩) := by
  obtain ⟨c, cs, htext, hspace, hclose⟩ := h.head level
  rw [htext, List.map_cons, List.cons_append]
  obtain ⟨hlt, hn⟩ := next?_blank hb hspace (cs.map .char ++ s)
  exact ⟨c, _, hlt, rfl, hclose, hn⟩

theorem seen_readItemsFrom_pretty (room level : Nat) {v : Value} {vs : List Value}
    (h : ∀ w ∈ v :: vs, Echoes w) {bs : Input} (hb : Blank bs) (rest : Input) :
    seen (readItemsFrom (readValue room) ((prettyChars level v).map .char ++
      ((moreItems level vs).map .char ++ (bs ++ .char ']' :: rest)))) =
        if Value.depthItems (v :: vs) ≤ room then .ok (v :: vs, rest) else .error .tooDeep := by
  have hv := h v (List.mem_cons_self ..)
  induction vs generalizing v with
  | nil =>
    have hi := hv.read room level blank_nil (endsNumber_blank hb (.inr (.inl rfl)) rest)
    rw [Value.depthItems, Value.depthItems, Nat.max_zero]
    by_cases hfits : v.depth ≤ room
    · rw [if_pos hfits] at hi ⊢
      obtain ⟨hlt, hn⟩ := next?_blank hb (x := .char ']') rfl rest
      exact seen_readItemsFrom_last hi hn
    · rw [if_neg hfits] at hi ⊢
      exact seen_readItemsFrom_error hi
  | cons w ws ih =>
    have hw : ∀ x ∈ w :: ws, Echoes x := fun x hx => h x (List.mem_cons_of_mem v hx)
    have hrest := ih hw (hw w (List.mem_cons_self ..))
    rw [moreItems_append, Value.depthItems]
    have hi :=
      hv.read room level blank_nil (endsNumber_cons (.inl rfl) ((newLine level).map .char ++
      ((prettyChars level w).map .char ++
        ((moreItems level ws).map .char ++ (bs ++ .char ']' :: rest)))))
    rw [List.nil_append] at hi
    by_cases hfits : v.depth ≤ room
    · rw [if_pos hfits] at hi
      obtain ⟨c, s, hlt, hs, hc, hn⟩ := (hw w (List.mem_cons_self ..)).next? level
        (blank_newLine level) ((moreItems level ws).map .char ++ (bs ++ .char ']' :: rest))
      rw [seen_readItemsFrom_more hi (next?_cons rfl _) hn (by simpa using hc), ← hs, hrest]
      by_cases hmore : Value.depthItems (w :: ws) ≤ room
      · rw [if_pos hmore, if_pos (Nat.max_le.mpr ⟨hfits, hmore⟩)]
        rfl
      · rw [if_neg hmore, if_neg fun hmax => hmore (Nat.max_le.mp hmax).2]
        rfl
    · rw [if_neg hfits] at hi
      rw [if_neg fun hmax => hfits (Nat.max_le.mp hmax).1]
      exact seen_readItemsFrom_error hi

theorem echoes_array {items : List Value} (h : ∀ w ∈ items, Echoes w) : Echoes (.array items) := by
  refine ⟨fun level => ?_, fun room level bs rest hb hrest => ?_⟩
  · cases items <;> exact ⟨'[', _, rfl, rfl, by decide⟩
  rw [Value.depth]
  rcases items with _ | ⟨v, vs⟩
  · have htext : (prettyChars level (.array [])).map Symbol.char ++ rest =
        .char '[' :: .char ']' :: rest := rfl
    obtain ⟨hlt, hn⟩ := next?_blank hb (x := .char '[') rfl (.char ']' :: rest)
    rw [htext, seen_readValue_array hn]
    rcases room with _ | room
    · rfl
    · dsimp only
      rw [seen_readItems_nil (next?_cons rfl _), Value.depthItems, if_pos (by omega)]
      rfl
  · have htext : (prettyChars level (.array (v :: vs))).map Symbol.char ++ rest =
        .char '[' :: ((newLine (level + 1)).map .char ++ ((prettyChars (level + 1) v).map .char ++
          ((moreItems (level + 1) vs).map .char ++
            ((newLine level).map .char ++ .char ']' :: rest)))) := by
      simp [prettyChars, prettyItems_cons]
    rw [htext]
    obtain ⟨hlt, hn⟩ := next?_blank hb (x := .char '[') rfl
      ((newLine (level + 1)).map .char ++ ((prettyChars (level + 1) v).map .char ++
        ((moreItems (level + 1) vs).map .char ++
          ((newLine level).map .char ++ .char ']' :: rest))))
    obtain ⟨c, s, hlt', hs, hc, hn'⟩ := (h v (List.mem_cons_self ..)).next? (level + 1)
      (blank_newLine (level + 1))
      ((moreItems (level + 1) vs).map .char ++ ((newLine level).map .char ++ .char ']' :: rest))
    rw [seen_readValue_array hn]
    rcases room with _ | room
    · rfl
    · dsimp only
      rw [seen_readItems hn' (by simpa using hc), ← hs,
        seen_readItemsFrom_pretty room (level + 1) h (blank_newLine level) rest]
      simp only [Nat.add_le_add_iff_right]
      split <;> rfl

/-! ### Objects -/

/-- A member's text after the opening quotation mark of its key, and what follows it. -/
def memberText (level : Nat) (k : String) (v : Value) (s : Input) : Input :=
  (k.toList.flatMap escapeChar).map .char ++
    .char '"' :: .char ':' :: .char ' ' :: ((prettyChars level v).map .char ++ s)

/-- What is printed after the first member of an object. -/
def moreMembers (level : Nat) : List (String × Value) → List Char
  | [] => []
  | (k, v) :: es =>
    ',' :: (newLine level ++ (printString k ++ ':' :: ' ' :: (prettyChars level v ++
      moreMembers level es)))

theorem prettyMembers_cons (level : Nat) (k : String) (v : Value) (es : List (String × Value)) :
    prettyMembers level ((k, v) :: es) = newLine level ++ (printString k ++ ':' :: ' ' ::
      (prettyChars level v ++ moreMembers level es)) := by
  induction es generalizing k v with
  | nil => simp [prettyMembers, moreMembers]
  | cons e es ih =>
    obtain ⟨l, w⟩ := e
    simp [prettyMembers, moreMembers, ih]

theorem moreMembers_append (level : Nat) (k : String) (v : Value) (es : List (String × Value))
    (s : Input) : (moreMembers level ((k, v) :: es)).map .char ++ s =
      .char ',' :: ((newLine level).map .char ++ .char '"' ::
        memberText level k v ((moreMembers level es).map .char ++ s)) := by
  simp [moreMembers, memberText, printString]

theorem put_of_sorted {acc es : Object} {k : String} {v : Value}
    (h : Table.Sorted (acc ++ (k, v) :: es)) : acc.put k v = acc ++ [(k, v)] :=
  Table.put_of_lt fun e he =>
    (List.pairwise_append.mp h).2.2 e he (k, v) (List.mem_cons_self ..)

theorem seen_readMember_pretty (room level : Nat) {v : Value} (hv : Echoes v) {acc es : Object}
    {k : String} (h : Table.Sorted (acc ++ (k, v) :: es)) {s : Input} (hs : EndsNumber s) :
    ∃ s₁ h, readString (memberText level k v s) = .ok (k, ⟨s₁, h⟩) ∧
      seen (readMember (readValue room) acc k s₁) =
        if v.depth ≤ room then .ok (acc ++ [(k, v)], s) else .error .tooDeep := by
  obtain ⟨hlt, hk⟩ := readString_escapeChars k
    (.char ':' :: .char ' ' :: ((prettyChars level v).map .char ++ s))
  refine ⟨_, hlt, hk, ?_⟩
  have hread := hv.read room level blank_space hs
  rw [seen_readMember (next?_cons rfl _), ← put_of_sorted h]
  refine (congrArg _ hread).trans ?_
  split <;> rfl

theorem seen_readMembersFrom_pretty (room level : Nat) (acc : Object) {es : Object} {k : String}
    {v : Value} (h : ∀ e ∈ (k, v) :: es, Echoes e.2)
    (hsorted : Table.Sorted (acc ++ (k, v) :: es)) {bs : Input} (hb : Blank bs) (rest : Input) :
    seen (readMembersFrom (readMember (readValue room)) acc
      (memberText level k v ((moreMembers level es).map .char ++ (bs ++ .char '\x7d' :: rest)))) =
        if Value.depthMembers ((k, v) :: es) ≤ room then .ok (acc ++ (k, v) :: es, rest)
        else .error .tooDeep := by
  have hv : Echoes v := h (k, v) (List.mem_cons_self ..)
  induction es generalizing acc k v with
  | nil =>
    obtain ⟨s₁, hlt, hk, hm⟩ := seen_readMember_pretty room level hv hsorted
      (endsNumber_blank hb (.inr (.inr rfl)) rest)
    rw [Value.depthMembers, Value.depthMembers, Nat.max_zero]
    by_cases hfits : v.depth ≤ room
    · rw [if_pos hfits] at hm ⊢
      obtain ⟨hlt', hn⟩ := next?_blank hb (x := .char '\x7d') rfl rest
      exact seen_readMembersFrom_last hk hm hn
    · rw [if_neg hfits] at hm ⊢
      exact seen_readMembersFrom_error hk hm
  | cons e es ih =>
    obtain ⟨l, w⟩ := e
    have hsorted' : Table.Sorted ((acc ++ [(k, v)]) ++ (l, w) :: es) := by
      rwa [List.append_assoc]
    have hrest := ih (acc ++ [(k, v)]) (fun x hx => h x (List.mem_cons_of_mem _ hx)) hsorted'
      (h (l, w) (List.mem_cons_of_mem _ (List.mem_cons_self ..)))
    rw [moreMembers_append, Value.depthMembers]
    obtain ⟨s₁, hlt, hk, hm⟩ := seen_readMember_pretty room level hv hsorted
      (endsNumber_cons (.inl rfl) ((newLine level).map .char ++ .char '"' ::
        memberText level l w ((moreMembers level es).map .char ++ (bs ++ .char '\x7d' :: rest))))
    by_cases hfits : v.depth ≤ room
    · rw [if_pos hfits] at hm
      obtain ⟨hlt', hn⟩ := next?_blank (blank_newLine level) (x := .char '"') rfl
        (memberText level l w ((moreMembers level es).map .char ++ (bs ++ .char '\x7d' :: rest)))
      rw [seen_readMembersFrom_more hk hm (next?_cons rfl _) hn, hrest, List.append_assoc]
      by_cases hmore : Value.depthMembers ((l, w) :: es) ≤ room
      · rw [if_pos hmore, if_pos (Nat.max_le.mpr ⟨hfits, hmore⟩)]
        rfl
      · rw [if_neg hmore, if_neg fun hmax => hmore (Nat.max_le.mp hmax).2]
    · rw [if_neg hfits] at hm
      rw [if_neg fun hmax => hfits (Nat.max_le.mp hmax).1]
      exact seen_readMembersFrom_error hk hm

theorem echoes_object {members : Object} (h : ∀ e ∈ members, Echoes e.2)
    (hsorted : Table.Sorted members) : Echoes (.object members) := by
  refine ⟨fun level => ?_, fun room level bs rest hb hrest => ?_⟩
  · cases members <;> exact ⟨'\x7b', _, rfl, rfl, by decide⟩
  rw [Value.depth]
  rcases members with _ | ⟨⟨k, v⟩, es⟩
  · have htext : (prettyChars level (.object [])).map Symbol.char ++ rest =
        .char '\x7b' :: .char '\x7d' :: rest := rfl
    obtain ⟨hlt, hn⟩ := next?_blank hb (x := .char '\x7b') rfl (.char '\x7d' :: rest)
    rw [htext, seen_readValue_object hn]
    rcases room with _ | room
    · rfl
    · dsimp only
      rw [seen_readMembers_nil (next?_cons rfl _), Value.depthMembers, if_pos (by omega)]
      rfl
  · have htext : (prettyChars level (.object ((k, v) :: es))).map Symbol.char ++ rest =
        .char '\x7b' :: ((newLine (level + 1)).map .char ++ .char '"' ::
          memberText (level + 1) k v ((moreMembers (level + 1) es).map .char ++
            ((newLine level).map .char ++ .char '\x7d' :: rest))) := by
      simp [prettyChars, prettyMembers_cons, memberText, printString]
    rw [htext]
    obtain ⟨hlt, hn⟩ := next?_blank hb (x := .char '\x7b') rfl
      ((newLine (level + 1)).map .char ++ .char '"' ::
        memberText (level + 1) k v ((moreMembers (level + 1) es).map .char ++
          ((newLine level).map .char ++ .char '\x7d' :: rest)))
    obtain ⟨hlt', hn'⟩ := next?_blank (blank_newLine (level + 1)) (x := .char '"') rfl
      (memberText (level + 1) k v ((moreMembers (level + 1) es).map .char ++
        ((newLine level).map .char ++ .char '\x7d' :: rest)))
    rw [seen_readValue_object hn]
    rcases room with _ | room
    · rfl
    · dsimp only
      rw [seen_readMembers hn', seen_readMembersFrom_pretty room (level + 1) [] h hsorted
        (blank_newLine level) rest]
      simp only [Nat.add_le_add_iff_right]
      split <;> rfl

/-! ### Any value -/

/-- **A value is read back** if its objects are in order and its doubles are read back. -/
theorem echoes {v : Value} (ho : v.Ordered) (hd : v.DoublesReadBack) : Echoes v := by
  match v with
  | .null => exact echoes_null
  | .bool b => exact echoes_bool b
  | .number (.integer n fits) => exact echoes_number (readsBack_integer n fits)
  | .number (.double x) => exact echoes_number (hd x (.refl _))
  | .string t => exact echoes_string t
  | .array items =>
    exact echoes_array fun w hw =>
      echoes (fun members h => ho members (.item hw h)) fun x h => hd x (.item hw h)
  | .object members =>
    refine echoes_object (fun e he => ?_) (ho members (.refl _))
    exact echoes (fun ms h => ho ms (.member he h)) fun x h => hd x (.member he h)
termination_by sizeOf v
decreasing_by
  · have := List.sizeOf_lt_of_mem hw
    simp only [Value.array.sizeOf_spec]
    omega
  · have := List.sizeOf_lt_of_mem he
    have : sizeOf e.2 < sizeOf e := by
      obtain ⟨k, w⟩ := e
      simp only [Prod.mk.sizeOf_spec]
      omega
    simp only [Value.object.sizeOf_spec]
    omega

/-- **A printed document is read back**, unless it is nested too deeply to be read; it was printed
all the same. -/
theorem readDocument_pretty {v : Value} (ho : v.Ordered) (hd : v.DoublesReadBack) :
    readDocument ((prettyChars 0 v).map .char) =
      if v.depth ≤ maxDepth then .ok v else .error .tooDeep := by
  have hread := (echoes ho hd).read maxDepth 0 blank_nil endsNumber_nil
  rw [List.nil_append, List.append_nil] at hread
  unfold readDocument readAll
  by_cases hfits : v.depth ≤ maxDepth
  · rw [if_pos hfits] at hread ⊢
    obtain ⟨hlt, heq⟩ := seen_eq_ok hread
    rw [heq]
    rfl
  · rw [if_neg hfits] at hread ⊢
    rw [seen_eq_error hread]
    rfl

end Json

end VersionedStore
