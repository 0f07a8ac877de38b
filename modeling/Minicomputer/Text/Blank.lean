/-!
# Blank characters

The white space that surrounds a name, a number or a remark and does not belong to it: the
twenty-five characters that Unicode gives the property `White_Space`.  `Char.isWhitespace` knows
four of them, all ASCII, which is too few for text that people paste from elsewhere.

* `Text.isBlank c` -- `c` is white space;
* `Text.trim s` -- `s` without the white space at its two ends.
-/

namespace Minicomputer
namespace Text

/-- White space in the sense of Unicode: the ASCII controls from tab to carriage return, the space,
next line, no-break space, the Ogham mark, the spaces of the general punctuation block with its line
and paragraph separators, and the ideographic space. -/
def isBlank (c : Char) : Bool :=
  let code := c.toNat
  (0x09 ≤ code && code ≤ 0x0D) || code == 0x20 || code == 0x85 || code == 0xA0 ||
    code == 0x1680 || (0x2000 ≤ code && code ≤ 0x200A) || code == 0x2028 || code == 0x2029 ||
    code == 0x202F || code == 0x205F || code == 0x3000

/-- The characters from the first to the last that is not blank. -/
def trimChars (cs : List Char) : List Char :=
  ((cs.dropWhile isBlank).reverse.dropWhile isBlank).reverse

def trim (s : String) : String :=
  String.ofList (trimChars s.toList)

end Text
end Minicomputer
