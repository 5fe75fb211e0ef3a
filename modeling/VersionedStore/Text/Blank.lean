/-!
# Blank characters

The characters that Unicode counts as white space.  A key made of nothing else is no key.
-/

namespace VersionedStore.Text

/-- The first and last code points of the runs of white space. -/
def blankRanges : List (Nat × Nat) :=
  [(0x9, 0xd), (0x20, 0x20), (0x85, 0x85), (0xa0, 0xa0), (0x1680, 0x1680), (0x2000, 0x200a),
   (0x2028, 0x2029), (0x202f, 0x202f), (0x205f, 0x205f), (0x3000, 0x3000)]

/-- A character with the Unicode property of white space. -/
def isBlank (c : Char) : Bool := blankRanges.any fun r => r.1 ≤ c.toNat && c.toNat ≤ r.2

/-- A string without a visible character. -/
def allBlank (s : String) : Bool := s.toList.all isBlank

end VersionedStore.Text
