/-! # The tag in front of source files

A source file starts with an open tag. Blanks before the tag are passed over with it; a file without
a tag is taken whole.
-/

namespace ClassForge

/-- What source files start with. -/
def openTag : String := "<?php"

/-- The characters with the Unicode property White_Space. -/
def isWhiteSpace (c : Char) : Bool :=
  let n := c.toNat
  (9 ≤ n && n ≤ 13) || n == 0x20 || n == 0x85 || n == 0xa0 || n == 0x1680 ||
    (0x2000 ≤ n && n ≤ 0x200a) || n == 0x2028 || n == 0x2029 || n == 0x202f || n == 0x205f ||
    n == 0x3000

/-- The code behind the open tag. -/
def stripOpenTag (source : String) : String :=
  let trimmed := source.toList.dropWhile isWhiteSpace
  if openTag.toList.isPrefixOf trimmed then String.ofList (trimmed.drop openTag.length) else source

end ClassForge
