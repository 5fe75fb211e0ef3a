/-!
# UTF-8

A file holds bytes, and its text is read from them.  `symbols` reads any bytes at all: a byte that
is not part of the encoding of a character stands in the text as a stray byte.  `decode?` is for
readers that want text only.

* `symbols_encode`: reading an encoded text gives back its characters;
* `decode?_encode`: hence such bytes are text, and the same text.
-/

namespace VersionedStore.Text

/-- A piece of what a file holds: a character, or a byte that is no part of one. -/
inductive Symbol
  | char (c : Char)
  | stray (b : UInt8)
  deriving DecidableEq, Repr

namespace Symbol

/-- How many bytes a symbol takes. -/
def size : Symbol → Nat
  | char c => c.utf8Size
  | stray _ => 1

def char? : Symbol → Option Char
  | char c => some c
  | stray _ => none

end Symbol

/-- The bytes of a text. -/
def encode (cs : List Char) : List UInt8 := cs.flatMap String.utf8EncodeChar

/-- The character whose encoding the bytes start with. -/
def leadingChar? (bs : List UInt8) : Option Char := (bs.take 4).toByteArray.utf8DecodeChar? 0

/-- The characters of a file, and the bytes between them that belong to none. -/
def symbols : List UInt8 → List Symbol
  | [] => []
  | b :: bs =>
    match leadingChar? (b :: bs) with
    | some c => .char c :: symbols (bs.drop (c.utf8Size - 1))
    | none => .stray b :: symbols bs
termination_by bs => bs.length
decreasing_by all_goals simp only [List.length_drop, List.length_cons]; omega

/-- The characters of bytes that are a text throughout. -/
def decode? (bs : List UInt8) : Option (List Char) := (symbols bs).mapM Symbol.char?

def bytes (s : String) : List UInt8 := encode s.toList

/-! ### Reading back -/

theorem leadingChar?_append (c : Char) (bs : List UInt8) :
    leadingChar? (String.utf8EncodeChar c ++ bs) = some c := by
  have hl : (String.utf8EncodeChar c).length ≤ 4 := by
    rw [String.length_utf8EncodeChar]; exact Char.utf8Size_le_four c
  unfold leadingChar?
  rw [List.take_append, List.take_of_length_le hl, List.toByteArray_append]
  have h := @List.utf8DecodeChar?_utf8Encode_singleton_append
    ((bs.take (4 - (String.utf8EncodeChar c).length)).toByteArray) c
  simpa [List.utf8Encode] using h

theorem symbols_append (c : Char) (bs : List UInt8) :
    symbols (String.utf8EncodeChar c ++ bs) = .char c :: symbols bs := by
  have h := leadingChar?_append c bs
  have hl := String.length_utf8EncodeChar c
  have hp := Char.utf8Size_pos c
  cases he : String.utf8EncodeChar c with
  | nil => rw [he] at hl; simp at hl; omega
  | cons b r =>
    rw [he] at h hl
    rw [List.cons_append] at h ⊢
    rw [symbols, h]
    simp only [List.length_cons] at hl
    have hr : c.utf8Size - 1 = r.length := by omega
    simp [hr]

theorem symbols_encode (cs : List Char) : symbols (encode cs) = cs.map .char := by
  induction cs with
  | nil => simp [encode, symbols]
  | cons c cs ih =>
    have : encode (c :: cs) = String.utf8EncodeChar c ++ encode cs := by simp [encode]
    rw [this, symbols_append, ih, List.map_cons]

theorem decode?_encode (cs : List Char) : decode? (encode cs) = some cs := by
  unfold decode?
  rw [symbols_encode]
  induction cs with
  | nil => rfl
  | cons c cs ih => simp [List.mapM_cons, Symbol.char?, ih]

end VersionedStore.Text
