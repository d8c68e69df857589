/-!
# Quoted strings of JSON

The characters of a string between quotation marks. Writing escapes the quotation mark, the
backslash and the characters below U+0020 and nothing else; reading knows every escape of the
format. An escape `\u` gives a unit of sixteen bits, and two units that are the halves of a surrogate
pair stand for one character.
-/

namespace CustomFunctions.Json.Quoted

/-- A lower-case hexadecimal digit. -/
def hexDigit (n : Nat) : Char :=
  if n < 10 then Char.ofNat ('0'.toNat + n) else Char.ofNat ('a'.toNat + (n - 10))

/-- The written form of one character. -/
def escape (c : Char) : List Char :=
  if c = '"' then ['\\', '"']
  else if c = '\\' then ['\\', '\\']
  else if c = '\x08' then ['\\', 'b']
  else if c = '\x0c' then ['\\', 'f']
  else if c = '\n' then ['\\', 'n']
  else if c = '\r' then ['\\', 'r']
  else if c = '\t' then ['\\', 't']
  else if c.toNat < 0x20 then
    ['\\', 'u', '0', '0', hexDigit (c.toNat / 16), hexDigit (c.toNat % 16)]
  else [c]

/-- The text between quotation marks, with what needs it escaped. -/
def quote (s : List Char) : List Char :=
  '"' :: (s.flatMap escape ++ ['"'])

/-- A part of a quoted string as read: a character, or the sixteen bits of an escape. -/
inductive Part where
  | char (c : Char)
  | unit (n : Nat)
deriving DecidableEq, Inhabited

/-- The value of a hexadecimal digit. -/
def hexValue? (c : Char) : Option Nat :=
  if '0' ≤ c ∧ c ≤ '9' then some (c.toNat - '0'.toNat)
  else if 'a' ≤ c ∧ c ≤ 'f' then some (c.toNat - 'a'.toNat + 10)
  else if 'A' ≤ c ∧ c ≤ 'F' then some (c.toNat - 'A'.toNat + 10)
  else none

/-- The character that a one-letter escape stands for. -/
def simpleEscape? (c : Char) : Option Char :=
  if c = '"' then some '"'
  else if c = '\\' then some '\\'
  else if c = '/' then some '/'
  else if c = 'b' then some '\x08'
  else if c = 'f' then some '\x0c'
  else if c = 'n' then some '\n'
  else if c = 'r' then some '\r'
  else if c = 't' then some '\t'
  else none

/-- The parts up to the closing quotation mark, and the text behind it. `before` holds the parts
already read, last one first. Control characters and unknown escapes are refused. -/
def parts? (before : List Part) : List Char → Option (List Part × List Char)
  | [] => none
  | '"' :: rest => some (before.reverse, rest)
  | '\\' :: 'u' :: a :: b :: c :: d :: rest =>
    match hexValue? a, hexValue? b, hexValue? c, hexValue? d with
    | some a, some b, some c, some d =>
      parts? (.unit (a * 4096 + b * 256 + c * 16 + d) :: before) rest
    | _, _, _, _ => none
  | '\\' :: e :: rest =>
    match simpleEscape? e with
    | some c => parts? (.char c :: before) rest
    | none => none
  | c :: rest =>
    if c = '\\' ∨ c.toNat < 0x20 then none else parts? (.char c :: before) rest

/-- The characters that the parts stand for; none if half of a surrogate pair stands alone. -/
def decode? : List Part → Option (List Char)
  | [] => some []
  | .char c :: rest => (decode? rest).map (c :: ·)
  | .unit n :: rest =>
    if 0xD800 ≤ n ∧ n < 0xDC00 then
      match rest with
      | .unit m :: rest =>
        if 0xDC00 ≤ m ∧ m < 0xE000 then
          (decode? rest).map (Char.ofNat (0x10000 + (n - 0xD800) * 0x400 + (m - 0xDC00)) :: ·)
        else none
      | _ => none
    else if 0xDC00 ≤ n ∧ n < 0xE000 then none
    else (decode? rest).map (Char.ofNat n :: ·)

theorem parts?_length {before : List Part} {s rest : List Char} {p : List Part}
    (h : parts? before s = some (p, rest)) : rest.length < s.length := by
  fun_induction parts? before s <;> grind

end CustomFunctions.Json.Quoted
