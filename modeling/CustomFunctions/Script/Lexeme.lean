import CustomFunctions.Script.Gap

/-!
# Lexemes

The lengths of the words, numbers, strings, patterns and operators that a text begins with, in
characters. A length of zero means that the text begins with no such lexeme.
-/

namespace CustomFunctions.Script.Lexeme

/-- The ASCII characters that are part of no word. -/
def separators : List Char :=
  ":;`\"'@#.,|^&<=>+-*/\\%?!~()[]\x7b\x7d".toList

/-- May `c` stand in a word? -/
def inWord (c : Char) : Bool :=
  0x20 ≤ c.toNat && ! isSpace c && ! separators.contains c

def isHex (c : Char) : Bool :=
  c.isDigit || ('a' ≤ c && c ≤ 'f') || ('A' ≤ c && c ≤ 'F')

/-- The length of a hexadecimal number in braces. -/
def bracedHex (s : List Char) : Nat :=
  match s with
  | '{' :: rest =>
    let digits := (rest.takeWhile isHex).length
    if digits ≠ 0 ∧ (rest.drop digits).head? = some '}' then digits + 2 else 0
  | _ => 0

/-- The length of an escape for one character by its number. -/
def unicodeEscape (s : List Char) : Nat :=
  match s with
  | '\\' :: 'u' :: rest =>
    if 0 < bracedHex rest then bracedHex rest + 2
    else if 4 ≤ (rest.takeWhile isHex).length then 6
    else 0
  | _ => 0

/-- The length of the rest of a word, of which the first `skip` characters belong to an escape. -/
def wordTail (skip : Nat) : List Char → Nat
  | [] => 0
  | c :: rest =>
    match skip with
    | skip + 1 => wordTail skip rest + 1
    | 0 =>
      if inWord c then wordTail 0 rest + 1
      else
        match unicodeEscape (c :: rest) with
        | 0 => 0
        | n + 1 => wordTail n rest + 1

/-- The length of a word. -/
def word (s : List Char) : Nat :=
  if s.head?.any Char.isDigit then 0 else wordTail 0 s

/-- The length of the name of a private member. -/
def privateName (s : List Char) : Nat :=
  match s with
  | '#' :: rest => if word rest = 0 then 0 else word rest + 1
  | _ => 0

/-- The length of digits with single underscores between them. -/
def digitsTail (isDigit : Char → Bool) : List Char → Nat
  | '_' :: c :: rest => if isDigit c then digitsTail isDigit rest + 2 else 0
  | c :: rest => if isDigit c then digitsTail isDigit rest + 1 else 0
  | [] => 0

/-- The length of digits of which the first is no underscore. -/
def digits (isDigit : Char → Bool) (s : List Char) : Nat :=
  if s.head?.any isDigit then digitsTail isDigit s else 0

/-- The length of an exponent. -/
def exponent (s : List Char) : Nat :=
  match s with
  | c :: rest =>
    if c = 'e' ∨ c = 'E' then
      let sign := if rest.head? = some '+' ∨ rest.head? = some '-' then 1 else 0
      match digits Char.isDigit (rest.drop sign) with
      | 0 => 0
      | n + 1 => n + 2 + sign
    else 0
  | [] => 0

/-- The length of a point with digits behind it and of an exponent. -/
def fraction (s : List Char) : Nat :=
  match s with
  | '.' :: rest =>
    let n := digits Char.isDigit rest
    1 + n + exponent (rest.drop n)
  | _ => exponent s

/-- The length of the digits of a number whose base its second character announces. -/
def radixDigits (s : List Char) : Nat :=
  match s with
  | c :: rest =>
    if c = 'x' ∨ c = 'X' then digits isHex rest
    else if c = 'o' ∨ c = 'O' then digits (fun d => '0' ≤ d && d ≤ '7') rest
    else if c = 'b' ∨ c = 'B' then digits (fun d => d = '0' || d = '1') rest
    else 0
  | [] => 0

/-- The length of the letter that marks an integer of arbitrary size. -/
def bigSuffix (s : List Char) : Nat :=
  if s.head? = some 'n' then 1 else 0

/-- The length of a number. -/
def number (s : List Char) : Nat :=
  match s with
  | '.' :: rest => if rest.head?.any Char.isDigit then fraction s else 0
  | '0' :: rest =>
    match radixDigits rest with
    | 0 =>
      let n := digits Char.isDigit s
      match fraction (s.drop n) with
      | 0 => n + bigSuffix (s.drop n)
      | m => n + m
    | n => n + 2 + bigSuffix (rest.drop (n + 1))
  | _ =>
    match digits Char.isDigit s with
    | 0 => 0
    | n =>
      match fraction (s.drop n) with
      | 0 => n + bigSuffix (s.drop n)
      | m => n + m

/-- Is the text behind a backslash an escape? -/
def isEscape (s : List Char) : Bool :=
  match s with
  | 'x' :: rest => 2 ≤ (rest.takeWhile isHex).length
  | 'u' :: _ => 0 < unicodeEscape ('\\' :: s)
  | c :: _ => ! isStop c
  | [] => false

/-- The length of the rest of a string with its closing quotation mark. A string ends on its
line. -/
def stringTail (quote : Char) : List Char → Option Nat
  | [] => none
  | '\\' :: c :: rest =>
    if isEscape (c :: rest) then (stringTail quote rest).map (· + 2) else none
  | c :: rest =>
    if c = quote then some 1
    else if c = '\\' ∨ c = '\n' ∨ c = '\r' ∨ isStop c then none
    else (stringTail quote rest).map (· + 1)

/-- The length of a string. -/
def string (s : List Char) : Nat :=
  match s with
  | c :: rest => if c = '"' ∨ c = '\'' then ((stringTail c rest).map (· + 1)).getD 0 else 0
  | [] => 0

/-- The length of the text in a template up to its end or to a substitution; none if neither
comes. -/
def templateText : List Char → Option Nat
  | [] => none
  | '`' :: _ => some 0
  | '$' :: '{' :: _ => some 0
  | '\\' :: c :: rest => if isStop c then none else (templateText rest).map (· + 2)
  | c :: rest => if isStop c then none else (templateText rest).map (· + 1)

/-- The length of the rest of a pattern with its closing slash; in a class of characters a slash
stands for itself. -/
def patternTail (inClass : Bool) : List Char → Option Nat
  | [] => none
  | '\\' :: c :: rest =>
    if c = '\n' ∨ isStop c then none else (patternTail inClass rest).map (· + 2)
  | c :: rest =>
    if c = '\n' ∨ isStop c then none
    else if c = '/' ∧ ! inClass then some 1
    else
      let inClass := if c = '[' then true else if c = ']' then false else inClass
      (patternTail inClass rest).map (· + 1)

/-- The length of a regular expression pattern between slashes, with its flags. -/
def pattern (s : List Char) : Nat :=
  match s with
  | '/' :: c :: rest =>
    if c = '/' ∨ c = '*' then 0
    else
      match patternTail false (c :: rest) with
      | some n => n + 1 + ((s.drop (n + 1)).takeWhile Char.isLower).length
      | none => 0
  | _ => 0

/-- The operators and other marks, longer ones before their beginnings. -/
def marks : List (List Char) :=
  [">>>=", "...", "===", "!==", "**=", "<<=", ">>=", ">>>", "&&=", "||=", "??=", "=>", "==", "!=",
    "<=", ">=", "&&", "||", "??", "?.", "++", "--", "+=", "-=", "*=", "/=", "%=", "&=", "|=", "^=",
    "<<", ">>", "**", "\x7b", "\x7d", "(", ")", "[", "]", ";", ",", "<", ">", "+", "-", "*", "/",
    "%", "&", "|", "^", "!", "~", "?", ":", "=", ".", "@", "#"].map String.toList

/-- The longest mark that the text begins with. A question mark before a decimal fraction is a mark
of its own. -/
def mark (s : List Char) : List Char :=
  match s with
  | '?' :: '.' :: c :: _ =>
    if c.isDigit then ['?'] else ['?', '.']
  | _ => (marks.find? (·.isPrefixOf s)).getD []

/-- The length of a name in markup: words joined by hyphens, points and colons. -/
def markupName (s : List Char) : Nat :=
  match word s with
  | 0 => 0
  | _ => (s.takeWhile fun c => inWord c || c = '-' || c = '.' || c = ':').length

/-- The length of text between tags. -/
def markupText (s : List Char) : Nat :=
  (s.takeWhile fun c => c ≠ '<' && c ≠ '>' && c ≠ '{' && c ≠ '}' && ! isStop c).length

end CustomFunctions.Script.Lexeme
