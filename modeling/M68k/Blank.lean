/-!
# Blank characters

The characters with the Unicode property White_Space, and the words between them.

## Main definitions

* `isBlank`: the property
* `blankSeparated`: the words of a text
-/

namespace M68k

/-- The character has the Unicode property White_Space. -/
def isBlank (c : Char) : Bool :=
  let n := c.toNat
  (0x09 ≤ n && n ≤ 0x0D) || n == 0x20 || n == 0x85 || n == 0xA0 || n == 0x1680 ||
    (0x2000 ≤ n && n ≤ 0x200A) || n == 0x2028 || n == 0x2029 || n == 0x202F || n == 0x205F ||
    n == 0x3000

/-- The words of a text: its longest runs of characters that are not blank, in order. -/
def blankSeparated : List Char → List (List Char)
  | [] => []
  | c :: rest =>
    if isBlank c then blankSeparated rest
    else
      match rest, blankSeparated rest with
      | next :: _, word :: words =>
        if isBlank next then [c] :: word :: words else (c :: word) :: words
      | _, words => [c] :: words

end M68k
