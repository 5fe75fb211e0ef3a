import VersionedStore.Json.Input

/-!
# The grammar of JSON texts

Which texts are JSON, said without a reader: every phrase is put together from its parts, with
blanks between them wherever the format allows some.  Strings are taken by their spelling here, in
which an escape may name half of a pair of units; such a spelling stands for no text.

* `IsNumber`, `IsText`: numbers, and what stands between quotation marks;
* `Phrase`: values, and the items and members inside of brackets;
* `Spells`: which text a spelling stands for;
* `ObjectText`: the text of an object, with the names of its members and the texts of their values.
-/

namespace VersionedStore.Json.Grammar

/-! ### Blanks and numbers -/

abbrev Blanks : Type := {cs : List Char // ∀ c ∈ cs, c = ' ' ∨ c = '\n' ∨ c = '\t' ∨ c = '\r'}

def noBlanks : Blanks := ⟨[], by simp⟩

structure Digits (cs : List Char) : Prop where
  ne_nil : cs ≠ []
  digits : ∀ c ∈ cs, c.isDigit = true

/-- The digits before the point; a zero in front stands alone. -/
structure Whole (cs : List Char) : Prop extends Digits cs where
  alone : cs.head? = some '0' → cs = ['0']

/-- The point and the digits after it, if there are any. -/
inductive Fraction : List Char → Prop
  | absent : Fraction []
  | point {ds : List Char} (digits : Digits ds) : Fraction ('.' :: ds)

/-- An exponent with or without a sign, if there is one. -/
inductive Exponent : List Char → Prop
  | absent : Exponent []
  | power {e : Char} {sign ds : List Char} (letter : e = 'e' ∨ e = 'E')
      (signed : sign = [] ∨ sign = ['+'] ∨ sign = ['-']) (digits : Digits ds) :
        Exponent (e :: (sign ++ ds))

/-- A number without its sign. -/
inductive IsMagnitude : List Char → Prop
  | parts {whole fraction exponent : List Char} (front : Whole whole) (middle : Fraction fraction)
      (back : Exponent exponent) : IsMagnitude (whole ++ (fraction ++ exponent))

/-- A number. -/
inductive IsNumber : List Char → Prop
  | plain {cs : List Char} (magnitude : IsMagnitude cs) : IsNumber cs
  | minus {cs : List Char} (magnitude : IsMagnitude cs) : IsNumber ('-' :: cs)

/-! ### Strings -/

/-- The letters that stand after a backslash, with the characters that they stand for. -/
def letters : List (Char × Char) :=
  [('"', '"'), ('\\', '\\'), ('/', '/'), ('b', '\x08'), ('f', '\x0c'), ('n', '\n'), ('r', '\r'),
    ('t', '\t')]

def hexDigits : List (Char × Nat) := "0123456789abcdef".toList.zipIdx ++ "ABCDEF".toList.zipIdx 10

/-- Four hexadecimal digits and the unit that they name. -/
inductive Hex : List Char → Nat → Prop
  | digits {a b c d : Char × Nat} (ha : a ∈ hexDigits) (hb : b ∈ hexDigits) (hc : c ∈ hexDigits)
      (hd : d ∈ hexDigits) : Hex [a.1, b.1, c.1, d.1] (((a.2 * 16 + b.2) * 16 + c.2) * 16 + d.2)

/-- A character that stands for itself. -/
structure IsPlain (c : Char) : Prop where
  ne_quote : c ≠ '"'
  ne_backslash : c ≠ '\\'
  visible : 0x20 ≤ c.toNat

/-- What stands between the quotation marks of a string. -/
inductive IsText : List Char → Prop
  | nil : IsText []
  | plain {c : Char} {cs : List Char} (char : IsPlain c) (rest : IsText cs) : IsText (c :: cs)
  | letter {p : Char × Char} {cs : List Char} (known : p ∈ letters) (rest : IsText cs) :
      IsText ('\\' :: p.1 :: cs)
  | unit {u cs : List Char} {n : Nat} (hex : Hex u n) (rest : IsText cs) :
    IsText ('\\' :: 'u' :: (u ++ cs))

/-- What stands between the quotation marks, and the characters that it stands for.  Of two units
that are a pair neither stands alone. -/
inductive Spells : List Char → List Char → Prop
  | nil : Spells [] []
  | plain {c : Char} {cs s : List Char} (char : IsPlain c) (rest : Spells cs s) :
    Spells (c :: cs) (c :: s)
  | letter {p : Char × Char} {cs s : List Char} (known : p ∈ letters) (rest : Spells cs s) :
      Spells ('\\' :: p.1 :: cs) (p.2 :: s)
  | unit {u cs s : List Char} {n : Nat} (hex : Hex u n) (alone : ¬ (0xd800 ≤ n ∧ n ≤ 0xdfff))
      (rest : Spells cs s) : Spells ('\\' :: 'u' :: (u ++ cs)) (Char.ofNat n :: s)
  | pair {u u' cs s : List Char} {high low : Nat} (hex : Hex u high) (hex' : Hex u' low)
      (first : 0xd800 ≤ high ∧ high ≤ 0xdbff) (second : 0xdc00 ≤ low ∧ low ≤ 0xdfff)
      (rest : Spells cs s) :
      Spells ('\\' :: 'u' :: (u ++ '\\' :: 'u' :: (u' ++ cs)))
        (Char.ofNat ((high - 0xd800) * 0x400 + (low - 0xdc00) + 0x10000) :: s)

/-! ### Values -/

/-- A member with the blanks around its parts. -/
def memberText (b₁ : Blanks) (k : List Char) (b₂ b₃ : Blanks) (v : List Char) (b₄ : Blanks) :
    List Char :=
  b₁.1 ++ '"' :: (k ++ '"' :: (b₂.1 ++ ':' :: (b₃.1 ++ (v ++ b₄.1))))

/-- What a phrase is: a value, or what an array or an object that is not empty holds. -/
inductive Kind
  | value
  | items
  | members

/-- **The phrases of the format.** -/
inductive Phrase : Kind → List Char → Prop
  | null : Phrase .value ['n', 'u', 'l', 'l']
  | true : Phrase .value ['t', 'r', 'u', 'e']
  | false : Phrase .value ['f', 'a', 'l', 's', 'e']
  | number {cs : List Char} (h : IsNumber cs) : Phrase .value cs
  | string {cs : List Char} (h : IsText cs) : Phrase .value ('"' :: (cs ++ ['"']))
  | noItems (b : Blanks) : Phrase .value ('[' :: (b.1 ++ [']']))
  | array {cs : List Char} (h : Phrase .items cs) : Phrase .value ('[' :: (cs ++ [']']))
  | noMembers (b : Blanks) : Phrase .value ('\x7b' :: (b.1 ++ ['\x7d']))
  | object {cs : List Char} (h : Phrase .members cs) : Phrase .value ('\x7b' :: (cs ++ ['\x7d']))
  | lastItem {v : List Char} (b b' : Blanks) (h : Phrase .value v) :
    Phrase .items (b.1 ++ (v ++ b'.1))
  | item {v cs : List Char} (b b' : Blanks) (h : Phrase .value v) (rest : Phrase .items cs) :
      Phrase .items (b.1 ++ (v ++ b'.1) ++ ',' :: cs)
  | lastMember {k v : List Char} (b₁ b₂ b₃ b₄ : Blanks) (key : IsText k) (h : Phrase .value v) :
      Phrase .members (memberText b₁ k b₂ b₃ v b₄)
  | member {k v cs : List Char} (b₁ b₂ b₃ b₄ : Blanks) (key : IsText k) (h : Phrase .value v)
      (rest : Phrase .members cs) : Phrase .members (memberText b₁ k b₂ b₃ v b₄ ++ ',' :: cs)

abbrev IsValue (cs : List Char) : Prop := Phrase .value cs

/-! ### Objects with named members -/

/-- Members whose names are spelled, each with the text of its value. -/
inductive Members : List (String × List Char) → List Char → Prop
  | last {k v : List Char} {key : String} (b₁ b₂ b₃ b₄ : Blanks)
      (spells : Spells k key.toList) (h : IsValue v) :
      Members [(key, v)] (memberText b₁ k b₂ b₃ v b₄)
  | more {k v cs : List Char} {key : String} {ms : List (String × List Char)} (b₁ b₂ b₃ b₄ : Blanks)
      (spells : Spells k key.toList) (h : IsValue v) (rest : Members ms cs) :
      Members ((key, v) :: ms) (memberText b₁ k b₂ b₃ v b₄ ++ ',' :: cs)

/-- **The text of an object** with blanks around it, and its members in their order. -/
inductive ObjectText : List (String × List Char) → List Char → Prop
  | empty (b b' b'' : Blanks) : ObjectText [] (b.1 ++ '\x7b' :: (b'.1 ++ '\x7d' :: b''.1))
  | members {ms : List (String × List Char)} {cs : List Char} (b b' : Blanks) (h : Members ms cs) :
      ObjectText ms (b.1 ++ '\x7b' :: (cs ++ '\x7d' :: b'.1))

end VersionedStore.Json.Grammar
