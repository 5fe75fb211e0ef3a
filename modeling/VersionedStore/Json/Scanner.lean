import VersionedStore.Json.Input

/-!
# The parts of a JSON text

Words, numbers and strings, read from the front of a text.  The first fault in the order of the text
is the one that is reported.

* `readString`: a string and its escapes;
* `readNumber`: a number, exact if it is an integer of a machine word and else a double;
* `readScalar`: any value that is neither an array nor an object;
* `skipString`, `skipNumber`: the same where nobody wants the value, with fewer rules.
-/

namespace VersionedStore.Json

open Text (Symbol)

/-! ### Words -/

def readWord : (word : List Char) → (s : Input) → Except ReadError (Tail s)
  | [], s => .ok (.all s)
  | _ :: _, [] => .error .endInValue
  | c :: cs, x :: s => do
    if x = .char c then
      let t ← readWord cs s
      .ok (t.after x).tail
    else .error .wordExpected

/-! ### Numbers -/

/-- A number as it is written: its digits before the point and after it, and its exponent. -/
structure Literal where
  negative : Bool
  whole : List Char
  fraction : List Char
  exponent : Option Int
  deriving DecidableEq, Repr

/-- Takes digits up into a word of 64 bits as long as it holds them: the word, and how many digits
are left. -/
def gather : (digits : List Char) → (word : Nat) → Nat × Nat
  | [], word => (word, 0)
  | c :: cs, word =>
    let next := word * 10 + (c.toNat - '0'.toNat)
    if next < 2 ^ 64 then gather cs next else (word, cs.length + 1)

namespace Literal

def value (l : Literal) : Nat := Nat.ofDigitChars 10 l.whole 0

/-- Neither a fraction nor an exponent is written. -/
def isWhole (l : Literal) : Bool := l.fraction.isEmpty && l.exponent.isNone

/-- The digits that count and the power of ten that puts the point back.  Digits that a word does
not hold are left out: those before the point count as zeros, those after it not at all. -/
def parts (l : Literal) : Nat × Int :=
  let (word, dropped) := gather l.whole 0
  let (word, ignored) := gather l.fraction word
  (word, l.exponent.getD 0 + dropped - (l.fraction.length - ignored : Nat))

/-- The number that is read, or none if it is too large.  A negative zero is no integer. -/
def number? (l : Literal) : Option Number :=
  let n : Int := if l.negative then -l.value else l.value
  if h : l.isWhole ∧ FitsWord n ∧ ¬(l.negative ∧ l.value = 0) then some (.integer n h.2.1)
  else (Binary64.ofParts? l.negative l.parts.1 l.parts.2).map .double

end Literal

/-- A symbol that is a decimal digit. -/
def digit? : Symbol → Option Char
  | .char c => if c.isDigit then some c else none
  | .stray _ => none

/-- The digits at the front of a text, and the text after them. -/
def spanDigits : (s : Input) → List Char × Tail s
  | [] => ([], .all [])
  | x :: s =>
    match digit? x with
    | some c => let (ds, t) := spanDigits s; (c :: ds, (t.after x).tail)
    | none => ([], .all (x :: s))

/-- Reads one digit at least. -/
def readDigits (s : Input) : Except ReadError (List Char × Rest s) :=
  match s with
  | [] => .error .endInValue
  | x :: s =>
    match digit? x with
    | some c => let (ds, t) := spanDigits s; .ok (c :: ds, t.after x)
    | none => .error .invalidNumber

/-- Reads the digits before the point; a zero in front stands alone. -/
def readWhole (s : Input) : Except ReadError (List Char × Rest s) :=
  match s with
  | .char '0' :: s =>
    if (s.head?.bind digit?).isSome then .error .invalidNumber
    else .ok (['0'], (Tail.all s).after _)
  | s => readDigits s

def readFraction (s : Input) : Except ReadError (List Char × Tail s) :=
  match s with
  | .char '.' :: s => do
    let (ds, r) ← readDigits s
    .ok (ds, (r.after _).tail)
  | s => .ok ([], .all s)

def readSign (s : Input) : Bool × Tail s :=
  match s with
  | .char '+' :: s => (false, ((Tail.all s).after _).tail)
  | .char '-' :: s => (true, ((Tail.all s).after _).tail)
  | s => (false, .all s)

def readExponent (s : Input) : Except ReadError (Option Int × Tail s) :=
  match s with
  | .char c :: s =>
    if c = 'e' ∨ c = 'E' then do
      let (minus, t) := readSign s
      let (ds, r) ← readDigits t.input
      let n : Int := Nat.ofDigitChars 10 ds 0
      .ok (some (if minus then -n else n), ((t.rest r).after _).tail)
    else .ok (none, .all (.char c :: s))
  | s => .ok (none, .all s)

def readLiteral (negative : Bool) (s : Input) : Except ReadError (Literal × Rest s) := do
  let (whole, r) ← readWhole s
  let (fraction, t) ← readFraction r.input
  let (exponent, u) ← readExponent t.input
  .ok (⟨negative, whole, fraction, exponent⟩, r.trans (t.trans u))

/-- Reads a number after its sign and gives it its value. -/
def readNumber (negative : Bool) (s : Input) : Except ReadError (Number × Rest s) := do
  let (l, r) ← readLiteral negative s
  match l.number? with
  | some n => .ok (n, r)
  | none => .error .numberOutOfRange

/-- Passes over a number after its sign.  Wherever it breaks off it is not a number. -/
def skipNumber (s : Input) : Except ReadError (Rest s) :=
  match readLiteral false s with
  | .ok (_, r) => .ok r
  | .error _ => .error .invalidNumber

/-! ### Strings -/

def hexValue? (c : Char) : Option Nat :=
  if c.isDigit then some (c.toNat - '0'.toNat)
  else if 'a' ≤ c ∧ c ≤ 'f' then some (c.toNat - 'a'.toNat + 10)
  else if 'A' ≤ c ∧ c ≤ 'F' then some (c.toNat - 'A'.toNat + 10)
  else none

def byteLength : Input → Nat
  | [] => 0
  | x :: s => x.size + byteLength s

/-- Why the four digits of an escape are not there: fewer than four bytes are left, or some of them
are no digits. -/
def hexError (s : Input) : ReadError := if byteLength s < 4 then .endInString else .invalidEscape

def readHex (s : Input) : Except ReadError (Nat × Rest s) :=
  match s with
  | .char a :: .char b :: .char c :: .char d :: r =>
    match hexValue? a, hexValue? b, hexValue? c, hexValue? d with
    | some a, some b, some c, some d =>
      .ok (((a * 16 + b) * 16 + c) * 16 + d, ((((Tail.all r).after _).after _).after _).after _)
    | _, _, _, _ => .error (hexError s)
  | s => .error (hexError s)

/-- The first of two units that stand for one character. -/
def isHighSurrogate (n : Nat) : Bool := 0xd800 ≤ n && n ≤ 0xdbff

/-- The second of two units that stand for one character. -/
def isLowSurrogate (n : Nat) : Bool := 0xdc00 ≤ n && n ≤ 0xdfff

/-- The character of two units. -/
def pairChar (high low : Nat) : Char :=
  Char.ofNat ((high - 0xd800) * 0x400 + (low - 0xdc00) + 0x10000)

/-- Reads the second escape of a pair, backslash included. -/
def readLowSurrogate (s : Input) : Except ReadError (Nat × Rest s) :=
  match s with
  | [] => .error .endInString
  | .char '\\' :: s =>
    match s with
    | [] => .error .endInString
    | .char 'u' :: s => do
      let (low, r) ← readHex s
      if isLowSurrogate low then .ok (low, (r.after _).after _)
      else .error .loneSurrogate
    | _ => .error .unpairedSurrogate
  | _ => .error .unpairedSurrogate

/-- Reads the digits of an escaped unit, and of the one after it if the two are a pair. -/
def readCodePoint (s : Input) : Except ReadError (Char × Rest s) := do
  let (n, r) ← readHex s
  if isLowSurrogate n then .error .loneSurrogate
  else if isHighSurrogate n then
    let (low, r') ← readLowSurrogate r.input
    .ok (pairChar n low, r.trans r'.tail)
  else .ok (Char.ofNat n, r)

/-- The character that a letter after a backslash stands for. -/
def simpleEscape? (c : Char) : Option Char :=
  if c = '"' ∨ c = '\\' ∨ c = '/' then some c
  else if c = 'b' then some '\x08'
  else if c = 'f' then some '\x0c'
  else if c = 'n' then some '\n'
  else if c = 'r' then some '\r'
  else if c = 't' then some '\t'
  else none

/-- Reads an escape after its backslash. -/
def readEscape (s : Input) : Except ReadError (Char × Rest s) :=
  match s with
  | [] => .error .endInString
  | .char 'u' :: s => do
    let (c, r) ← readCodePoint s
    .ok (c, r.after _)
  | .char c :: s =>
    match simpleEscape? c with
    | some d => .ok (d, (Tail.all s).after _)
    | none => .error .invalidEscape
  | .stray _ :: _ => .error .invalidEscape

/-- Passes over an escape after its backslash; the digits of a unit are not looked into. -/
def skipEscape (s : Input) : Except ReadError (Rest s) :=
  match s with
  | [] => .error .endInString
  | .char 'u' :: s => do
    let (_, r) ← readHex s
    .ok (r.after _)
  | .char c :: s =>
    if (simpleEscape? c).isSome then .ok ((Tail.all s).after _) else .error .invalidEscape
  | .stray _ :: _ => .error .invalidEscape

/-- A symbol that a string may not hold unescaped. -/
def isControl : Symbol → Bool
  | .char c => c.toNat < 0x20
  | .stray _ => false

/-- Reads a string after its opening quotation mark, escapes put in their places. -/
def readBody (s : Input) : Except ReadError (Input × Rest s) :=
  match s with
  | [] => .error .endInString
  | .char '"' :: s => .ok ([], (Tail.all s).after _)
  | .char '\\' :: s => do
    let (c, ⟨s₁, h₁⟩) ← readEscape s
    let (body, r) ← readBody s₁
    .ok (.char c :: body, .after _ (.trans ⟨s₁, h₁⟩ r.tail))
  | x :: s =>
    if isControl x then .error .controlCharacter
    else do
      let (body, r) ← readBody s
      .ok (x :: body, r.after x)
termination_by s.length
decreasing_by all_goals simp only [List.length_cons]; omega

/-- Reads a string after its opening quotation mark.  Whether it is text is seen at its end. -/
def readString (s : Input) : Except ReadError (String × Rest s) := do
  let (body, r) ← readBody s
  match body.mapM Symbol.char? with
  | some cs => .ok (String.ofList cs, r)
  | none => .error .notUnicode

/-- Passes over a string after its opening quotation mark. -/
def skipString (s : Input) : Except ReadError (Rest s) :=
  match s with
  | [] => .error .endInString
  | .char '"' :: s => .ok ((Tail.all s).after _)
  | .char '\\' :: s => do
    let ⟨s₁, h₁⟩ ← skipEscape s
    let r ← skipString s₁
    .ok (.after _ (.trans ⟨s₁, h₁⟩ r.tail))
  | x :: s =>
    if isControl x then .error .controlCharacter
    else do
      let r ← skipString s
      .ok (r.after x)
termination_by s.length
decreasing_by all_goals simp only [List.length_cons]; omega

/-! ### Values without parts -/

/-- Reads a value that is neither an array nor an object from a text that starts with it. -/
def readScalar (s : Input) : Except ReadError (Value × Rest s) :=
  match s with
  | [] => .error .endInValue
  | .stray _ :: _ => .error .valueExpected
  | .char c :: s =>
    if c = 'n' then do
      let t ← readWord ['u', 'l', 'l'] s
      .ok (.null, t.after _)
    else if c = 't' then do
      let t ← readWord ['r', 'u', 'e'] s
      .ok (.bool true, t.after _)
    else if c = 'f' then do
      let t ← readWord ['a', 'l', 's', 'e'] s
      .ok (.bool false, t.after _)
    else if c = '"' then do
      let (t, r) ← readString s
      .ok (.string t, r.after _)
    else if c = '-' then do
      let (n, r) ← readNumber true s
      .ok (.number n, r.after _)
    else if c.isDigit then do
      let (n, r) ← readNumber false (.char c :: s)
      .ok (.number n, r)
    else .error .valueExpected

end VersionedStore.Json
