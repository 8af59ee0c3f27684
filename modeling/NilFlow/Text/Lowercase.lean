/-!
# Lower case of option words

Option words are compared without regard to case. Every word they are compared with is ASCII, so the letters whose lower
case matters are the ASCII capitals and the two other characters whose lower case is ASCII: the capital I with a dot
(U+0130) and the Kelvin sign (U+212A). Where the distance to such a word is counted in bytes, it also matters whether
the lower case of a letter is longer or shorter.

* `resizedLetters`: the letters whose lower case takes another number of bytes, and is not ASCII.
* `lowercase`: the lower case of a text, as far as a comparison with an ASCII word can tell.
-/

namespace NilFlow

/-- The letters beyond ASCII whose lower case takes another number of bytes, with that lower case. -/
def resizedLetters : List (Char × Char) :=
  [('\u023a', '\u2c65'), ('\u023e', '\u2c66'), ('\u1e9e', '\u00df'), ('\u2126', '\u03c9'), ('\u212b', '\u00e5'),
    ('\u2c62', '\u026b'), ('\u2c64', '\u027d'), ('\u2c6d', '\u0251'), ('\u2c6e', '\u0271'), ('\u2c6f', '\u0250'),
    ('\u2c70', '\u0252'), ('\u2c7e', '\u023f'), ('\u2c7f', '\u0240'), ('\ua78d', '\u0265'), ('\ua7aa', '\u0266'),
    ('\ua7ab', '\u025c'), ('\ua7ac', '\u0261'), ('\ua7ad', '\u026c'), ('\ua7ae', '\u026a'), ('\ua7b0', '\u029e'),
    ('\ua7b1', '\u0287'), ('\ua7b2', '\u029d'), ('\ua7c5', '\u0282')]

/-- The lower case of a character, when it is an ASCII letter or changes its length; any other character stands for
itself. -/
def lowerChar (c : Char) : Char :=
  if c = '\u0130' then 'i' else if c = '\u212a' then 'k' else (resizedLetters.lookup c).getD c.toLower

/-- The lower case of a text, character by character. -/
def lowercase (s : String) : String := s.map lowerChar

end NilFlow
