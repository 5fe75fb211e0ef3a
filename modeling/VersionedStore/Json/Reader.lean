import VersionedStore.Json.Scanner

/-!
# Reading documents

Arrays and objects are read by two loops that do not know what they collect: `readItems` and
`readMembers` take a reader for one item or one member, so that a document (`readDocument`) and a
record with given fields are read under the same rules.

* `readDocument`: the value of a whole text;
* `skipValue`: a value that nobody wants, of which only the syntax is checked.
-/

namespace VersionedStore.Json

open Text (Symbol)

/-! ### Arrays -/

/-- Reads items from the first one to the closing bracket. -/
def readItemsFrom {α : Type} (item : Reader α) (s : Input) :
    Except ReadError (List α × Rest s) := do
  let (a, r₁) ← item s
  match next? r₁.input with
  | none => .error .endInArray
  | some (.char ']', r₂) => .ok ([a], r₁.trans r₂.tail)
  | some (.char ',', r₂) =>
    match next? r₂.input with
    | none => .error .endInValue
    | some (.char ']', _) => .error .trailingComma
    | some (x, r₃) => do
      let (as, r) ← readItemsFrom item (r₃.putBack x).input
      .ok (a :: as, r₁.trans (r₂.trans ((r₃.putBack x).rest r).tail).tail)
  | some _ => .error .itemEndExpected
termination_by s.length
decreasing_by
  exact Nat.lt_of_le_of_lt (r₃.putBack x).length_le (Nat.lt_trans r₂.length_lt r₁.length_lt)

/-- Reads the items of an array after its opening bracket. -/
def readItems {α : Type} (item : Reader α) (s : Input) : Except ReadError (List α × Rest s) :=
  match next? s with
  | none => .error .endInArray
  | some (.char ']', r) => .ok ([], r)
  | some (x, r) => do
    let (as, r') ← readItemsFrom item (r.putBack x).input
    .ok (as, (r.putBack x).rest r')

/-! ### Objects -/

def readColon (s : Input) : Except ReadError (Rest s) :=
  match next? s with
  | none => .error .endInObject
  | some (.char ':', r) => .ok r
  | some _ => .error .colonExpected

def readAfterColon {α : Type} (value : Reader α) : Reader α := fun s => do
  let r₁ ← readColon s
  let (a, r₂) ← value r₁.input
  .ok (a, r₁.trans r₂.tail)

/-- Reads members to the closing bracket, from the place after the first key's opening quotation
mark. `member` is given what was collected so far and the key, and reads on from there. -/
def readMembersFrom {α : Type} (member : α → String → Reader α) (collected : α) (s : Input) :
    Except ReadError (α × Rest s) := do
  let (key, r₁) ← readString s
  let (a, r₂) ← member collected key r₁.input
  match next? r₂.input with
  | none => .error .endInObject
  | some (.char '\x7d', r₃) => .ok (a, r₁.trans (r₂.trans r₃.tail).tail)
  | some (.char ',', r₃) =>
    match next? r₃.input with
    | none => .error .endInValue
    | some (.char '"', r₄) => do
      let (b, r) ← readMembersFrom member a r₄.input
      .ok (b, r₁.trans (r₂.trans (r₃.trans (r₄.trans r.tail).tail).tail).tail)
    | some (.char '\x7d', _) => .error .trailingComma
    | some _ => .error .keyExpected
  | some _ => .error .memberEndExpected
termination_by s.length
decreasing_by
  exact Nat.lt_trans (Nat.lt_trans r₄.length_lt r₃.length_lt)
    (Nat.lt_trans r₂.length_lt r₁.length_lt)

/-- Reads the members of an object after its opening bracket. -/
def readMembers {α : Type} (member : α → String → Reader α) (collected : α) (s : Input) :
    Except ReadError (α × Rest s) :=
  match next? s with
  | none => .error .endInObject
  | some (.char '\x7d', r) => .ok (collected, r)
  | some (.char '"', r₁) => do
    let (a, r) ← readMembersFrom member collected r₁.input
    .ok (a, r₁.trans r.tail)
  | some _ => .error .keyExpected

/-! ### Values -/

/-- Reads what follows a key, and puts the value into an object. -/
def readMember (value : Reader Value) (members : Object) (key : String) : Reader Object :=
  fun s => do
  let (v, r) ← readAfterColon value s
  .ok (members.put key v, r)

/-- Reads a value under which at most `room` brackets are open at once. -/
def readValue (room : Nat) : Reader Value := fun s =>
  match next? s with
  | none => .error .endInValue
  | some (.char '[', r₁) =>
    match room with
    | 0 => .error .tooDeep
    | room + 1 => do
      let (items, r) ← readItems (readValue room) r₁.input
      .ok (.array items, r₁.trans r.tail)
  | some (.char '\x7b', r₁) =>
    match room with
    | 0 => .error .tooDeep
    | room + 1 => do
      let (members, r) ← readMembers (readMember (readValue room)) [] r₁.input
      .ok (.object members, r₁.trans r.tail)
  | some (x, r₁) => do
    let (v, r) ← readScalar (r₁.putBack x).input
    .ok (v, (r₁.putBack x).rest r)

/-- How many brackets a document may have open at once. -/
def maxDepth : Nat := 127

/-- Runs a reader over a whole text. -/
def readAll {α : Type} (value : Reader α) (s : Input) : Except ReadError α := do
  let (a, r) ← value s
  if (next? r.input).isNone then .ok a else .error .trailingCharacters

/-- The value of a text. -/
def readDocument (s : Input) : Except ReadError Value := readAll (readValue maxDepth) s

/-! ### Values that nobody wants -/

/-- The two kinds of brackets. -/
inductive Bracket
  | square
  | curly
  deriving DecidableEq

/-- Passes over a value that is neither an array nor an object. -/
def skipScalar (s : Input) : Except ReadError (Rest s) :=
  match s with
  | [] => .error .endInValue
  | .stray _ :: _ => .error .valueExpected
  | .char c :: s => do
    if c = '"' then
      let r ← skipString s
      .ok (r.after _)
    else if c = '-' then
      let r ← skipNumber s
      .ok (r.after _)
    else if c.isDigit then skipNumber (.char c :: s)
    else
      let (_, r) ← readScalar (.char c :: s)
      .ok r

/-- Passes over a key and its colon.  `s` starts where the key is due. -/
def skipKey (s : Input) : Except ReadError (Rest s) :=
  match next? s with
  | none => .error .endInObject
  | some (.char '"', r₁) => do
    let r₂ ← skipString r₁.input
    let r ← readColon r₂.input
    .ok (r₁.trans (r₂.trans r.tail).tail)
  | some _ => .error .keyExpected

mutual

/-- Passes over a value inside the given open brackets, innermost first, and over all that closes
them. -/
def skipValueIn (stack : List Bracket) (s : Input) : Except ReadError (Rest s) :=
  match next? s with
  | none => .error .endInValue
  | some (.char '[', r₁) => do
    let t ← skipContents (.square :: stack) true r₁.input
    .ok (r₁.trans t)
  | some (.char '\x7b', r₁) => do
    let t ← skipContents (.curly :: stack) true r₁.input
    .ok (r₁.trans t)
  | some (x, r₁) => do
    let r ← skipScalar (r₁.putBack x).input
    let t ← skipContents stack false r.input
    .ok ((r₁.putBack x).rest (r.trans t))
termination_by (s.length, 0)
decreasing_by
  · exact .left _ _ r₁.length_lt
  · exact .left _ _ r₁.length_lt
  · exact .left _ _ (Nat.lt_of_lt_of_le r.length_lt (r₁.putBack x).length_le)

/-- Passes over the rest of the given open brackets, from the place after a value, or after an
opening bracket if `opened`. -/
def skipContents (stack : List Bracket) (opened : Bool) (s : Input) : Except ReadError (Tail s) :=
  match stack with
  | [] => .ok (.all s)
  | .square :: outer =>
    match next? s with
    | none => .error .endInArray
    | some (.char ']', r₁) => do
      let t ← skipContents outer false r₁.input
      .ok (r₁.trans t).tail
    | some (x, r₁) =>
      if opened then do
        let r ← skipValueIn (.square :: outer) s
        .ok r.tail
      else if x = .char ',' then do
        let r ← skipValueIn (.square :: outer) r₁.input
        .ok (r₁.trans r.tail).tail
      else .error .itemEndExpected
  | .curly :: outer =>
    match next? s with
    | none => .error .endInObject
    | some (.char '\x7d', r₁) => do
      let t ← skipContents outer false r₁.input
      .ok (r₁.trans t).tail
    | some (x, r₁) =>
      if opened then do
        let r₂ ← skipKey s
        let r ← skipValueIn (.curly :: outer) r₂.input
        .ok (r₂.trans r.tail).tail
      else if x = .char ',' then do
        let r₂ ← skipKey r₁.input
        let r ← skipValueIn (.curly :: outer) r₂.input
        .ok (r₁.trans (r₂.trans r.tail).tail).tail
      else .error .memberEndExpected
termination_by (s.length, 1)
decreasing_by
  · exact .left _ _ r₁.length_lt
  · exact .right _ Nat.zero_lt_one
  · exact .left _ _ r₁.length_lt
  · exact .left _ _ r₁.length_lt
  · exact .left _ _ r₂.length_lt
  · exact .left _ _ (Nat.lt_trans r₂.length_lt r₁.length_lt)

end

/-- Passes over a value.  Open brackets are kept on a stack, so that it may be nested at will, and
numbers and strings need not have a value. -/
def skipValue (s : Input) : Except ReadError (Rest s) := skipValueIn [] s

end VersionedStore.Json
