import VersionedStore.Proofs.Config.Fields

/-!
# Configurations by their members

Which configuration the text of an object is read as depends on four of its members only, looked up
by their names: neither their order nor any other member makes a difference.

* `Draft.add`: one more member; `taken_readField`: a member's text is read as that;
* `fieldOf`, `withMembers`: the fields by look-up, each with its default where it is absent;
* `foldlM_add`: adding members one after another comes to that, if their names are distinct;
* `readAll_compact`: the printed text of a configuration is read as the configuration;
* `parse_by_members`: a configuration survives its text if it is valid, and what is parsed is
  decided by look-up.
-/

namespace VersionedStore.Config

open Json Json.Grammar
open Text (Symbol)

variable {α : Type} {value : Reader α} {name key : String} {v : List Char}
  {ms : List (String × List Char)} {rest : Input}

/-! ### One member after another -/

/-- A field that must not have been found before, from the text of its value. -/
def newField (value : Reader α) (earlier : Option α) (v : List Char) : Option α :=
  if earlier.isSome then none else (readAll value (v.map .char)).toOption

/-- The draft with one more member, given by its name and the text of its value. -/
def Draft.add (d : Draft) (e : String × List Char) : Option Draft :=
  if e.1 = existenceField then
    (newField readText d.existenceKey e.2).map fun k => { d with existenceKey := some k }
  else if e.1 = recoveryField then
    (newField readText d.recoveryKey e.2).map fun k => { d with recoveryKey := some k }
  else if e.1 = onFaultField then
    (newField readPolicy d.onFault e.2).map fun p => { d with onFault := some p }
  else if e.1 = writeBackField then
    (newField readFlag d.writeBack e.2).map fun b => { d with writeBack := some b }
  else some d

theorem taken_readNew (name : String) (earlier : Option α) (h : ∃ o, Takes value v o)
    (b₂ b₃ : Blanks) (hrest : EndsNumber rest) :
    taken (readNew name earlier value
        (b₂.1.map .char ++ .char ':' :: (b₃.1.map .char ++ (v.map .char ++ rest)))) =
      (newField value earlier v).map fun a => (a, rest) := by
  obtain ⟨o, ho⟩ := h
  unfold readNew newField
  cases earlier with
  | some a => rfl
  | none =>
    rw [if_neg nofun, if_neg nofun, taken_readAfterColon, ho b₃ hrest, ho.readAll]

theorem taken_set {β : Type} {s : Input} {r : Except ReadError (α × Rest s)} {o : Option α}
    (h : taken r = o.map fun a => (a, rest)) (f : α → β) :
    taken (r >>= fun p => .ok (f p.1, p.2)) = (o.map f).map fun b => (b, rest) := by
  have htaken : taken (r >>= fun p => .ok (f p.1, p.2)) = (taken r).map fun p => (f p.1, p.2) := by
    rcases r with e | p <;> rfl
  rw [htaken, h]
  cases o <;> rfl

/-- **A member is read**, whichever it is: its name and the text of its value alone decide what
comes of it. -/
theorem taken_readField (d : Draft) (key : String) (h : IsValue v) (b₂ b₃ : Blanks)
    (hrest : EndsNumber rest) :
    taken (readField d key
        (b₂.1.map .char ++ .char ':' :: (b₃.1.map .char ++ (v.map .char ++ rest)))) =
      (d.add (key, v)).map fun d' => (d', rest) := by
  have htext (earlier) :=
    taken_readNew key earlier (exists_takes_typed "a string" pickString h) b₂ b₃ hrest
  have hpolicy := taken_readNew key d.onFault (exists_takes_policy h) b₂ b₃ hrest
  have hflag :=
    taken_readNew key d.writeBack (exists_takes_typed "a boolean" pickBool h) b₂ b₃ hrest
  unfold readField Draft.add
  dsimp only
  by_cases hexistence : key = existenceField
  · rw [if_pos hexistence, if_pos hexistence]
    exact taken_set (htext d.existenceKey) fun k => { d with existenceKey := some k }
  rw [if_neg hexistence, if_neg hexistence]
  by_cases hrecovery : key = recoveryField
  · rw [if_pos hrecovery, if_pos hrecovery]
    exact taken_set (htext d.recoveryKey) fun k => { d with recoveryKey := some k }
  rw [if_neg hrecovery, if_neg hrecovery]
  by_cases honFault : key = onFaultField
  · rw [if_pos honFault, if_pos honFault]
    exact taken_set hpolicy fun p => { d with onFault := some p }
  rw [if_neg honFault, if_neg honFault]
  by_cases hwriteBack : key = writeBackField
  · rw [if_pos hwriteBack, if_pos hwriteBack]
    exact taken_set hflag fun b => { d with writeBack := some b }
  rw [if_neg hwriteBack, if_neg hwriteBack]
  obtain ⟨hlt, hn⟩ :=
    next?_blank b₂.blank (x := .char ':') rfl (b₃.1.map .char ++ (v.map .char ++ rest))
  obtain ⟨hlt', hskip⟩ := left_eq_ok (left_skipValue h b₃.blank hrest)
  unfold readColon
  simp only [hn, ok_bind, hskip]
  rfl

theorem taken_member {k : List Char} (spells : Spells k key.toList) (h : IsValue v) (b₂ b₃ : Blanks)
    (hrest : EndsNumber rest) :
    ∃ s hlt, readString (k.map .char ++ .char '"' ::
        (b₂.1.map .char ++ .char ':' :: (b₃.1.map .char ++ (v.map .char ++ rest)))) =
          .ok (key, ⟨s, hlt⟩) ∧
      ∀ d, taken (readField d key s) = (d.add (key, v)).map fun d' => (d', rest) := by
  obtain ⟨hlt, hkey⟩ := readString_spells spells
    (b₂.1.map .char ++ .char ':' :: (b₃.1.map .char ++ (v.map .char ++ rest)))
  rw [String.ofList_toList] at hkey
  exact ⟨_, hlt, hkey, fun d => taken_readField d key h b₂ b₃ hrest⟩

theorem taken_readMembersFrom {cs : List Char} (h : Members ms cs) (rest : Input) : ∃ s hlt,
    next? (cs.map .char ++ .char '\x7d' :: rest) = some (.char '"', ⟨s, hlt⟩) ∧
      ∀ d, taken (readMembersFrom readField d s) = (ms.foldlM Draft.add d).map fun d' =>
        (d', rest) := by
  induction h with
  | @last k v key b₁ b₂ b₃ b₄ spells h =>
    obtain ⟨s, hs, hkey, hfield⟩ :=
      taken_member spells h b₂ b₃ (endsNumber_blank b₄.blank (.inr (.inr rfl)) rest)
    obtain ⟨hlt, hn⟩ :=
      next?_blank b₁.blank (x := .char '"') rfl (k.map .char ++ .char '"' :: (b₂.1.map .char ++
      .char ':' :: (b₃.1.map .char ++ (v.map .char ++ (b₄.1.map .char ++ .char '\x7d' :: rest)))))
    obtain ⟨hlt', hn'⟩ := next?_blank b₄.blank (x := .char '\x7d') rfl rest
    rw [memberText_append]
    refine ⟨_, hlt, hn, fun d => ?_⟩
    have hd := hfield d
    rw [List.foldlM_cons]
    rcases hadd : d.add (key, v) with _ | d' <;> rw [hadd] at hd
    · obtain ⟨e, he⟩ := taken_eq_none hd
      exact congrArg Except.toOption (seen_readMembersFrom_error hkey (congrArg seen he))
    · obtain ⟨_, he⟩ := taken_eq_some hd
      exact congrArg Except.toOption (seen_readMembersFrom_last hkey (congrArg seen he) hn')
  | @more k v cs key ms b₁ b₂ b₃ b₄ spells h hmore ih =>
    obtain ⟨s₁, hs₁, hnext, ih⟩ := ih
    obtain ⟨s, hs, hkey, hfield⟩ := taken_member spells h b₂ b₃
      (endsNumber_blank b₄.blank (.inl rfl) (cs.map .char ++ .char '\x7d' :: rest))
    obtain ⟨hlt, hn⟩ :=
      next?_blank b₁.blank (x := .char '"') rfl (k.map .char ++ .char '"' :: (b₂.1.map .char ++
      .char ':' :: (b₃.1.map .char ++ (v.map .char ++
        (b₄.1.map .char ++ .char ',' :: (cs.map .char ++ .char '\x7d' :: rest))))))
    obtain ⟨hlt', hn'⟩ :=
      next?_blank b₄.blank (x := .char ',') rfl (cs.map .char ++ .char '\x7d' :: rest)
    rw [List.map_append, List.map_cons, List.append_assoc, List.cons_append, memberText_append]
    refine ⟨_, hlt, hn, fun d => ?_⟩
    have hd := hfield d
    rw [List.foldlM_cons]
    rcases hadd : d.add (key, v) with _ | d' <;> rw [hadd] at hd
    · obtain ⟨e, he⟩ := taken_eq_none hd
      exact congrArg Except.toOption (seen_readMembersFrom_error hkey (congrArg seen he))
    · obtain ⟨_, he⟩ := taken_eq_some hd
      exact (congrArg Except.toOption
        (seen_readMembersFrom_more hkey (congrArg seen he) hn' hnext)).trans (ih d')

theorem taken_read_object {s s₁ : Input} {h : s₁.length < s.length}
    (hn : next? s = some (.char '\x7b', ⟨s₁, h⟩)) :
    taken (read s) = (taken (readMembers readField {} s₁)).map fun p => (p.1.config, p.2) := by
  unfold read
  simp only [hn]
  rcases readMembers readField {} s₁ with e | ⟨d, r⟩ <;> rfl

theorem toOption_readAll_read {text : List Char} (h : ObjectText ms text) :
    (readAll read (text.map .char)).toOption = (ms.foldlM Draft.add {}).map Draft.config := by
  rw [toOption_readAll]
  cases h with
  | empty b b' b'' =>
    have htext : (b.1 ++ '\x7b' :: (b'.1 ++ '\x7d' :: b''.1)).map Symbol.char = b.1.map .char ++
        .char '\x7b' :: (b'.1.map .char ++ .char '\x7d' :: b''.1.map .char) := by simp
    obtain ⟨hlt, hn⟩ := next?_blank b.blank (x := .char '\x7b') rfl
      (b'.1.map .char ++ .char '\x7d' :: b''.1.map .char)
    obtain ⟨hlt', hn'⟩ := next?_blank b'.blank (x := .char '\x7d') rfl (b''.1.map .char)
    have hmembers : taken (readMembers readField {} _) = some ({}, _) :=
      congrArg Except.toOption (seen_readMembers_nil hn')
    rw [htext, taken_read_object hn, hmembers]
    simp only [Option.map_some, Option.bind_some, next?_of_blank b''.blank]
    rfl
  | @members ms cs b b' h =>
    have htext : (b.1 ++ '\x7b' :: (cs ++ '\x7d' :: b'.1)).map Symbol.char = b.1.map .char ++
        .char '\x7b' :: (cs.map .char ++ .char '\x7d' :: b'.1.map .char) := by simp
    obtain ⟨hlt, hn⟩ := next?_blank b.blank (x := .char '\x7b') rfl
      (cs.map .char ++ .char '\x7d' :: b'.1.map .char)
    obtain ⟨s, hlt', hn', hfrom⟩ := taken_readMembersFrom h (b'.1.map .char)
    have hmembers : taken (readMembers readField {} _) = _ :=
      (congrArg Except.toOption (seen_readMembers hn')).trans (hfrom {})
    rw [htext, taken_read_object hn, hmembers]
    rcases ms.foldlM Draft.add {} with _ | d
    · rfl
    · simp only [Option.map_some, Option.bind_some, next?_of_blank b'.blank]
      rfl

/-! ### By look-up -/

/-- A field by look-up among the members, with what it is if it is absent. -/
def fieldOf (value : Reader α) (absent : α) (name : String) (ms : List (String × List Char)) :
    Option α :=
  match ms.lookup name with
  | some v => (readAll value (v.map .char)).toOption
  | none => some absent

/-- The configuration with the fields that are among the members. -/
def withMembers (c : Config) (ms : List (String × List Char)) : Option Config := do
  let existenceKey ← fieldOf readText c.existenceKey existenceField ms
  let recoveryKey ← fieldOf readText c.recoveryKey recoveryField ms
  let onFault ← fieldOf readPolicy c.onFault onFaultField ms
  let writeBack ← fieldOf readFlag c.writeBack writeBackField ms
  return ⟨existenceKey, recoveryKey, onFault, writeBack⟩

section FieldOf

variable {absent : α}

theorem fieldOf_self :
    fieldOf value absent name ((name, v) :: ms) = (readAll value (v.map .char)).toOption := by
  unfold fieldOf
  rw [List.lookup_cons_self]

theorem lookup_of_ne (h : name ≠ key) : ((key, v) :: ms).lookup name = ms.lookup name := by
  rw [List.lookup_cons, beq_eq_false_iff_ne.mpr h]

theorem fieldOf_of_ne (h : name ≠ key) :
    fieldOf value absent name ((key, v) :: ms) = fieldOf value absent name ms := by
  unfold fieldOf
  rw [lookup_of_ne h]

theorem fieldOf_of_notMem (h : name ∉ ms.map Prod.fst) :
    fieldOf value absent name ms = some absent := by
  induction ms with
  | nil => rfl
  | cons e ms ih =>
    obtain ⟨hne, hrest⟩ := not_or.mp (mt List.mem_cons.mpr h)
    rw [fieldOf_of_ne hne, ih hrest]

end FieldOf

section Cons

variable {c : Config}

theorem withMembers_existence (h : existenceField ∉ ms.map Prod.fst) :
    withMembers c ((existenceField, v) :: ms) =
      (readAll readText (v.map .char)).toOption.bind fun k => withMembers { c with existenceKey :=
  k } ms := by
  unfold withMembers
  simp only [fieldOf_self, fieldOf_of_notMem h]
  rw [fieldOf_of_ne (by decide), fieldOf_of_ne (by decide), fieldOf_of_ne (by decide)]
  rfl

theorem withMembers_recovery (h : recoveryField ∉ ms.map Prod.fst) :
    withMembers c ((recoveryField, v) :: ms) =
      (readAll readText (v.map .char)).toOption.bind fun k => withMembers { c with recoveryKey :=
  k } ms := by
  unfold withMembers
  simp only [fieldOf_self, fieldOf_of_notMem h]
  rw [fieldOf_of_ne (by decide), fieldOf_of_ne (by decide), fieldOf_of_ne (by decide)]
  rcases fieldOf readText c.existenceKey existenceField ms <;>
    rcases (readAll readText (v.map .char)).toOption <;> rfl

theorem withMembers_onFault (h : onFaultField ∉ ms.map Prod.fst) :
    withMembers c ((onFaultField, v) :: ms) =
      (readAll readPolicy (v.map .char)).toOption.bind fun p => withMembers { c with onFault :=
  p } ms := by
  unfold withMembers
  simp only [fieldOf_self, fieldOf_of_notMem h]
  rw [fieldOf_of_ne (by decide), fieldOf_of_ne (by decide), fieldOf_of_ne (by decide)]
  rcases fieldOf readText c.existenceKey existenceField ms <;>
    rcases fieldOf readText c.recoveryKey recoveryField ms <;>
      rcases (readAll readPolicy (v.map .char)).toOption <;> rfl

theorem withMembers_writeBack (h : writeBackField ∉ ms.map Prod.fst) :
    withMembers c ((writeBackField, v) :: ms) =
      (readAll readFlag (v.map .char)).toOption.bind fun b => withMembers { c with writeBack :=
  b } ms := by
  unfold withMembers
  simp only [fieldOf_self, fieldOf_of_notMem h]
  rw [fieldOf_of_ne (by decide), fieldOf_of_ne (by decide), fieldOf_of_ne (by decide)]
  rcases fieldOf readText c.existenceKey existenceField ms <;>
    rcases fieldOf readText c.recoveryKey recoveryField ms <;>
      rcases fieldOf readPolicy c.onFault onFaultField ms <;>
        rcases (readAll readFlag (v.map .char)).toOption <;> rfl

def fieldNames : List String := [existenceField, recoveryField, onFaultField, writeBackField]

theorem withMembers_congr {ms' : List (String × List Char)}
    (h : ∀ name ∈ fieldNames, ms.lookup name = ms'.lookup name) :
    withMembers c ms = withMembers c ms' := by
  have hfield {α : Type} (value : Reader α) (absent : α) {name : String}
      (hname : name ∈ fieldNames) :
      fieldOf value absent name ms = fieldOf value absent name ms' := by
    unfold fieldOf
    rw [h name hname]
  unfold withMembers
  rw [hfield readText c.existenceKey (by decide), hfield readText c.recoveryKey (by decide),
    hfield readPolicy c.onFault (by decide), hfield readFlag c.writeBack (by decide)]

theorem withMembers_unknown (h : key ∉ fieldNames) :
    withMembers c ((key, v) :: ms) = withMembers c ms :=
  withMembers_congr fun _ hname => lookup_of_ne fun heq => h (heq ▸ hname)

end Cons

/-- No field of the draft is among the names. -/
structure Draft.Fresh (d : Draft) (names : List String) : Prop where
  existenceKey : existenceField ∈ names → d.existenceKey = none
  recoveryKey : recoveryField ∈ names → d.recoveryKey = none
  onFault : onFaultField ∈ names → d.onFault = none
  writeBack : writeBackField ∈ names → d.writeBack = none

theorem Draft.fresh_empty (names : List String) : Draft.Fresh {} names :=
  ⟨fun _ => rfl, fun _ => rfl, fun _ => rfl, fun _ => rfl⟩

/-- **Adding members with distinct names is looking the fields up.**  A field that was found is in
the place of the default from there on, since its name does not come again. -/
theorem foldlM_add (hnodup : (ms.map Prod.fst).Nodup) {d : Draft} (hd : d.Fresh (ms.map Prod.fst)) :
    (ms.foldlM Draft.add d).map Draft.config = withMembers d.config ms := by
  induction ms generalizing d with
  | nil => rfl
  | cons e ms ih =>
    obtain ⟨key, v⟩ := e
    obtain ⟨hkey, hms⟩ := List.nodup_cons.mp hnodup
    have hself : key ∈ ((key, v) :: ms).map Prod.fst := List.mem_cons_self ..
    obtain ⟨he, hr, ho, hw⟩ := hd
    have he' (h : existenceField ∈ ms.map Prod.fst) := he (List.mem_cons_of_mem key h)
    have hr' (h : recoveryField ∈ ms.map Prod.fst) := hr (List.mem_cons_of_mem key h)
    have ho' (h : onFaultField ∈ ms.map Prod.fst) := ho (List.mem_cons_of_mem key h)
    have hw' (h : writeBackField ∈ ms.map Prod.fst) := hw (List.mem_cons_of_mem key h)
    rw [List.foldlM_cons]
    unfold Draft.add newField
    dsimp only
    by_cases hexistence : key = existenceField
    · subst hexistence
      rw [if_pos rfl, he hself, if_neg nofun, withMembers_existence hkey]
      rcases (readAll readText (v.map .char)).toOption with _ | k
      · rfl
      · exact ih hms ⟨fun h => absurd h hkey, hr', ho', hw'⟩
    rw [if_neg hexistence]
    by_cases hrecovery : key = recoveryField
    · subst hrecovery
      rw [if_pos rfl, hr hself, if_neg nofun, withMembers_recovery hkey]
      rcases (readAll readText (v.map .char)).toOption with _ | k
      · rfl
      · exact ih hms ⟨he', fun h => absurd h hkey, ho', hw'⟩
    rw [if_neg hrecovery]
    by_cases honFault : key = onFaultField
    · subst honFault
      rw [if_pos rfl, ho hself, if_neg nofun, withMembers_onFault hkey]
      rcases (readAll readPolicy (v.map .char)).toOption with _ | p
      · rfl
      · exact ih hms ⟨he', hr', fun h => absurd h hkey, hw'⟩
    rw [if_neg honFault]
    by_cases hwriteBack : key = writeBackField
    · subst hwriteBack
      rw [if_pos rfl, hw hself, if_neg nofun, withMembers_writeBack hkey]
      rcases (readAll readFlag (v.map .char)).toOption with _ | b
      · rfl
      · exact ih hms ⟨he', hr', ho', fun h => absurd h hkey⟩
    · rw [if_neg hwriteBack, withMembers_unknown (by simp [fieldNames, *])]
      exact ih hms ⟨he', hr', ho', hw'⟩

/-! ### Whole configurations -/

theorem toOption_readAll_members {text : List Char} (h : ObjectText ms text)
    (hnodup : (ms.map Prod.fst).Nodup) :
    (readAll read (text.map .char)).toOption = withMembers {} ms :=
  (toOption_readAll_read h).trans (foldlM_add hnodup (Draft.fresh_empty _))

def printedMembers (c : Config) : List (String × List Char) :=
  [(existenceField, printString c.existenceKey), (recoveryField, printString c.recoveryKey),
   (onFaultField, printString c.onFault.name), (writeBackField, printBool c.writeBack)]

theorem isValue_printBool : (b : Bool) → IsValue (printBool b)
  | true => .true
  | false => .false

theorem printed_member (k : String) (v : List Char) : printString k ++ ':' :: v =
    Grammar.memberText noBlanks (k.toList.flatMap escapeChar) noBlanks noBlanks v noBlanks := by
  simp [Grammar.memberText, noBlanks, printString]

theorem objectText_compact (c : Config) : ObjectText c.printedMembers c.compact.toList := by
  have hspells (t : String) : Spells (t.toList.flatMap escapeChar) t.toList :=
    spells_escapeChars t.toList
  unfold compact Json.compact
  rw [String.toList_ofList]
  simp only [compactChars, compactMembers, printed_member]
  exact .members noBlanks noBlanks
    (.more noBlanks noBlanks noBlanks noBlanks (hspells existenceField)
      (isValue_printString c.existenceKey)
      (.more noBlanks noBlanks noBlanks noBlanks (hspells recoveryField)
        (isValue_printString c.recoveryKey)
        (.more noBlanks noBlanks noBlanks noBlanks (hspells onFaultField)
          (isValue_printString c.onFault.name)
          (.last noBlanks noBlanks noBlanks noBlanks (hspells writeBackField)
            (isValue_printBool c.writeBack)))))

theorem withMembers_printed (c d : Config) : withMembers d c.printedMembers = some c := by
  have htext (t : String) : (readAll readText ((printString t).map .char)).toOption = some t :=
    (takes_text (spells_escapeChars t.toList)).readAll.trans (by rw [String.ofList_toList])
  have hname : (policyOfName c.onFault.name).toOption = some c.onFault := by cases c.onFault <;> rfl
  have hpolicy :
      (readAll readPolicy ((printString c.onFault.name).map .char)).toOption = some c.onFault :=
    (takes_policyName (spells_escapeChars c.onFault.name.toList)).readAll.trans
      (by rw [String.ofList_toList, hname])
  have hflag : (readAll readFlag ((printBool c.writeBack).map .char)).toOption = some c.writeBack :=
    (takes_flag c.writeBack).readAll
  unfold printedMembers
  rw [withMembers_existence (show _ ∉ [recoveryField, onFaultField, writeBackField] by decide),
    htext, Option.bind_some,
    withMembers_recovery (show _ ∉ [onFaultField, writeBackField] by decide), htext,
    Option.bind_some, withMembers_onFault (show _ ∉ [writeBackField] by decide), hpolicy,
    Option.bind_some, withMembers_writeBack (show _ ∉ [] by decide), hflag]
  rfl

/-- **A printed configuration is read back**, valid or not. -/
theorem readAll_compact (c : Config) : readAll read (Input.ofString c.compact) = .ok c := by
  have hread :=
    (toOption_readAll_members (objectText_compact c) (show fieldNames.Nodup by decide)).trans
    (withMembers_printed c {})
  unfold Input.ofString
  rcases hall : readAll read (c.compact.toList.map .char) with e | c' <;> rw [hall] at hread
  · cases hread
  · exact congrArg Except.ok (Option.some.inj hread)

theorem parse_compact (c : Config) : parse c.compact = c.validate.map fun _ => c := by
  unfold parse
  rw [readAll_compact]
  dsimp only
  rcases c.validate with e | u <;> rfl

def ifValid (c : Config) : Option Config := (c.validate.map fun _ => c).toOption

theorem toOption_parse (text : String) :
    (parse text).toOption = (readAll read (Input.ofString text)).toOption.bind ifValid := by
  unfold parse ifValid
  rcases readAll read (Input.ofString text) with e | c
  · rfl
  · change _ = (c.validate.map fun _ => c).toOption
    dsimp only
    rcases c.validate with e | u <;> rfl

/-- A name in which some character shows. -/
def Visible (name : String) : Prop := ∃ c ∈ name.toList, Text.isBlank c = false

theorem allBlank_eq_false_iff (name : String) : Text.allBlank name = false ↔ Visible name := by
  simp [Text.allBlank, Visible]

theorem validate_eq_ok_iff (c : Config) : c.validate = .ok () ↔
    Visible c.existenceKey ∧ Visible c.recoveryKey ∧ c.existenceKey ≠ c.recoveryKey := by
  rw [← allBlank_eq_false_iff, ← allBlank_eq_false_iff]
  unfold validate
  rcases Text.allBlank c.existenceKey <;> rcases Text.allBlank c.recoveryKey <;> simp

/-- **Configurations survive their own texts exactly when they are valid**, and nothing else is
parsed than valid ones.  What the text of an object with distinct names is parsed as is decided by
the four fields, looked up by their names: each field that is absent takes its default, and only
then is the whole validated.  So two texts whose members agree on the four names are parsed alike,
whatever the order of the members and whatever others there are. -/
theorem parse_by_members :
    (∀ c : Config, (c.validate = .ok () → parse c.compact = .ok c) ∧
      ∀ e, c.validate = .error e → parse c.compact = .error e) ∧
    (∀ text c, parse text = .ok c →
      Visible c.existenceKey ∧ Visible c.recoveryKey ∧ c.existenceKey ≠ c.recoveryKey) ∧
    (∀ c : Config, c.validate = .ok () ↔
      Visible c.existenceKey ∧ Visible c.recoveryKey ∧ c.existenceKey ≠ c.recoveryKey) ∧
    (∀ ms ms' text text', ObjectText ms text.toList → ObjectText ms' text'.toList →
      (ms.map Prod.fst).Nodup → (ms'.map Prod.fst).Nodup →
      (∀ name ∈ fieldNames, ms.lookup name = ms'.lookup name) →
      (parse text).toOption = (parse text').toOption) ∧
    ∀ ms text, ObjectText ms text.toList → (ms.map Prod.fst).Nodup →
      (parse text).toOption = (withMembers {} ms).bind ifValid := by
  have hparse {ms : List (String × List Char)} {text : String} (h : ObjectText ms text.toList)
      (hnodup : (ms.map Prod.fst).Nodup) :
        (parse text).toOption = (withMembers {} ms).bind ifValid := by
    rw [toOption_parse]
    unfold Input.ofString
    rw [toOption_readAll_members h hnodup]
  refine ⟨fun c => ⟨fun h => ?_, fun e h => ?_⟩,
    fun text c h => (validate_eq_ok_iff c).mp (validate_of_parse h), validate_eq_ok_iff,
    fun ms ms' text text' h h' hnodup hnodup' hagree => ?_, fun ms text h hnodup => hparse h hnodup⟩
  · rw [parse_compact, h]
    rfl
  · rw [parse_compact, h]
    rfl
  · rw [hparse h hnodup, hparse h' hnodup', withMembers_congr hagree]

theorem isValue_one : IsValue ['1'] := by
  have hone : Whole ['1'] := ⟨⟨by decide, List.forall_mem_singleton.mpr rfl⟩, by decide⟩
  exact .number (.plain (.parts hone .absent .absent))

/-- A text with a member that is no field is parsed as the text without it. -/
theorem parse_by_members_unknown :
    (parse "\x7b\"x\":1,\"write_back_after_migration\":false\x7d").toOption =
        (parse "\x7b \"write_back_after_migration\":false\x7d").toOption ∧
      parse (compact { onFault := .skip }) = .ok { onFault := .skip } := by
  have hspells := spells_escapeChars writeBackField.toList
  have hmore : ObjectText [("x", ['1']), (writeBackField, printBool false)]
      "\x7b\"x\":1,\"write_back_after_migration\":false\x7d".toList := by
    refine cast (congrArg (ObjectText _) ?_) (ObjectText.members noBlanks noBlanks
      (.more noBlanks noBlanks noBlanks noBlanks (spells_escapeChars "x".toList) isValue_one
        (.last noBlanks noBlanks noBlanks noBlanks hspells (isValue_printBool false))))
    decide +kernel
  have hless : ObjectText [(writeBackField, printBool false)]
      "\x7b \"write_back_after_migration\":false\x7d".toList := by
    refine cast (congrArg (ObjectText _) ?_) (ObjectText.members noBlanks noBlanks
      (.last ⟨[' '], by simp⟩ noBlanks noBlanks noBlanks hspells (isValue_printBool false)))
    decide +kernel
  exact ⟨parse_by_members.2.2.2.1 _ _ _ _ hmore hless (by decide) (by decide) (by decide),
    (parse_by_members.1 _).1 (by decide +kernel)⟩

/-- **An object with a member whose name stands for no text is refused**, though the object without
that member is not: half of a pair of units can be spelled, and no name is that. -/
theorem lone_half_refused : IsValue "\x7b\"\\ud800\":1\x7d".toList ∧
    parse "\x7b\"\\ud800\":1\x7d" = .error (.serialization "unexpected end of hex escape") ∧
      IsValue "\x7b\x7d".toList ∧ parse "\x7b\x7d" = .ok {} := by
  have hhalf : Hex ['d', '8', '0', '0'] 0xd800 :=
    .digits (a := ('d', 13)) (b := ('8', 8)) (c := ('0', 0)) (d := ('0', 0))
      (by decide) (by decide) (by decide) (by decide)
  have hmember : IsValue "\x7b\"\\ud800\":1\x7d".toList := by
    refine cast (congrArg IsValue ?_) (Phrase.object
      (.lastMember noBlanks noBlanks noBlanks noBlanks (.unit hhalf .nil) isValue_one))
    decide +kernel
  refine ⟨hmember, by decide +kernel, ?_, by decide +kernel⟩
  refine cast (congrArg IsValue ?_) (Phrase.noMembers noBlanks)
  decide +kernel

end VersionedStore.Config
