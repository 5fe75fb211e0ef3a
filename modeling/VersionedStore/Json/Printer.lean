import VersionedStore.Binary64.Shortest
import VersionedStore.Json.Value

/-!
# Printed JSON

The two texts of a value: `compact`, without a blank, and `pretty`, with a line for every item and
two blanks of indentation for every open bracket.  Members are printed in the order of the object,
and only quotation marks, backslashes and control characters are escaped.
-/

namespace VersionedStore.Json

def hexDigit (n : Nat) : Char := Nat.digitChar (n % 16)

def escapeChar (c : Char) : List Char :=
  if c = '"' then ['\\', '"']
  else if c = '\\' then ['\\', '\\']
  else if c = '\x08' then ['\\', 'b']
  else if c = '\x0c' then ['\\', 'f']
  else if c = '\n' then ['\\', 'n']
  else if c = '\r' then ['\\', 'r']
  else if c = '\t' then ['\\', 't']
  else if c.toNat < 0x20 then
    ['\\', 'u', '0', '0', hexDigit (c.toNat / 16), hexDigit c.toNat]
  else [c]

def printString (s : String) : List Char := '"' :: s.toList.flatMap escapeChar ++ ['"']

def printNumber : Number → List Char
  | .integer n _ => if n < 0 then '-' :: Nat.toDigits 10 n.natAbs else Nat.toDigits 10 n.natAbs
  | .double x => x.text

def printBool (b : Bool) : List Char := (if b then "true" else "false").toList

mutual

/-- A value without blanks. -/
def compactChars : Value → List Char
  | .null => "null".toList
  | .bool b => printBool b
  | .number n => printNumber n
  | .string s => printString s
  | .array items => '[' :: compactItems items ++ [']']
  | .object members => '\x7b' :: compactMembers members ++ ['\x7d']

def compactItems : List Value → List Char
  | [] => []
  | [v] => compactChars v
  | v :: w :: vs => compactChars v ++ ',' :: compactItems (w :: vs)

def compactMembers : List (String × Value) → List Char
  | [] => []
  | [(k, v)] => printString k ++ ':' :: compactChars v
  | (k, v) :: e :: es => printString k ++ ':' :: compactChars v ++ ',' :: compactMembers (e :: es)

end

/-- A new line under the given number of open brackets. -/
def newLine (level : Nat) : List Char := '\n' :: List.replicate (2 * level) ' '

mutual

/-- A value over several lines, under the given number of open brackets. -/
def prettyChars (level : Nat) : Value → List Char
  | .null => "null".toList
  | .bool b => printBool b
  | .number n => printNumber n
  | .string s => printString s
  | .array [] => ['[', ']']
  | .array (v :: vs) => '[' :: prettyItems (level + 1) (v :: vs) ++ newLine level ++ [']']
  | .object [] => ['\x7b', '\x7d']
  | .object (e :: es) =>
    '\x7b' :: prettyMembers (level + 1) (e :: es) ++ newLine level ++ ['\x7d']

def prettyItems (level : Nat) : List Value → List Char
  | [] => []
  | [v] => newLine level ++ prettyChars level v
  | v :: w :: vs => newLine level ++ prettyChars level v ++ ',' :: prettyItems level (w :: vs)

def prettyMembers (level : Nat) : List (String × Value) → List Char
  | [] => []
  | [(k, v)] => newLine level ++ printString k ++ ':' :: ' ' :: prettyChars level v
  | (k, v) :: e :: es =>
    newLine level ++ printString k ++ ':' :: ' ' :: prettyChars level v ++
      ',' :: prettyMembers level (e :: es)

end

/-- The text of a value without blanks. -/
def compact (v : Value) : String := String.ofList (compactChars v)

/-- The text of a value over several lines. -/
def pretty (v : Value) : String := String.ofList (prettyChars 0 v)

example : compact (.object [("a", .array [.null, .bool true]), ("b", .ofInt (-5))]) =
    "\x7b\"a\":[null,true],\"b\":-5\x7d" := by decide +kernel

example : pretty (.object [("a", .array [.null]), ("b", .array [])]) =
    "\x7b\n  \"a\": [\n    null\n  ],\n  \"b\": []\n\x7d" := by decide +kernel

end VersionedStore.Json
