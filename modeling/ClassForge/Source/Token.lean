/-! # Tokens of source text

To find declarations it is enough to see the words of a text and its opening braces. Whatever stands
in quotes is passed over, and so is every other character.
-/

namespace ClassForge

/-- A word or an opening brace. -/
structure Token where
  text : String
  /-- Whether a colon stands right before it, as in `Foo::class`. -/
  afterColon : Bool
deriving DecidableEq, Repr

namespace Token

/-- Characters that words are made of: letters, digits, the underscore, the separator of names, and
everything from U+007F on. -/
def isWordChar (c : Char) : Bool :=
  c.isAlphanum || c == '_' || c == '\\' || 0x7e < c.toNat

/-- The opening brace. -/
def brace : Token := ⟨"\x7b", false⟩

/-- Where in a text the scanner stands. -/
inductive Mode where
  | code
  /-- Inside of quotes. -/
  | quoted (quote : Char)
  /-- Inside of quotes, right after a backslash. -/
  | escaped (quote : Char)
deriving DecidableEq, Repr

/-- A word that has been read so far, last character first, and the character before it. -/
structure Word where
  reversed : List Char
  before : Char
deriving DecidableEq, Repr

namespace Word

/-- No word, after the given character. -/
def none (before : Char) : Word := ⟨[], before⟩

/-- The word with one more character. -/
def push (word : Word) (c : Char) : Word := { word with reversed := c :: word.reversed }

/-- The token that a word makes; no characters make none. -/
def tokens (word : Word) : List Token :=
  if word.reversed = [] then [] else [⟨String.ofList word.reversed.reverse, word.before == ':'⟩]

end Word

/-- The tokens of a text, from a mode and a word that has begun. -/
def scanFrom : Mode → Word → List Char → List Token
  | _, word, [] => word.tokens
  | .code, word, c :: rest =>
    if isWordChar c then scanFrom .code (word.push c) rest
    else if c = '\'' ∨ c = '"' then word.tokens ++ scanFrom (.quoted c) (Word.none c) rest
    else if c = '\x7b' then word.tokens ++ brace :: scanFrom .code (Word.none c) rest
    else word.tokens ++ scanFrom .code (Word.none c) rest
  | .quoted quote, word, c :: rest =>
    if c = '\\' then scanFrom (.escaped quote) word rest
    else if c = quote then scanFrom .code word rest
    else scanFrom (.quoted quote) word rest
  | .escaped quote, word, _ :: rest => scanFrom (.quoted quote) word rest

/-- The tokens of a text. -/
def scan (chars : List Char) : List Token :=
  scanFrom .code (Word.none ' ') chars

end Token

end ClassForge
