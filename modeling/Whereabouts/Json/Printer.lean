import Whereabouts.Json.Value

/-! JSON texts: one without spaces, and one laid out on lines with an indent of two. -/
namespace Whereabouts

namespace Numeral

def intText (i : Int) : List Char :=
  (if i < 0 then '-' else '+') :: (digits i.natAbs).map digitChar

/-- The characters of a numeral; an exponent always has its sign. -/
def chars (n : Numeral) : List Char :=
  (if n.negative then ['-'] else []) ++ (digits n.whole).map digitChar
    ++ (if n.fraction = [] then [] else '.' :: n.fraction.map digitChar)
    ++ (match n.exponent with
        | none => []
        | some e => 'e' :: intText e)

end Numeral

namespace Json

def hexChar (n : Nat) : Char := Char.ofNat (if n < 10 then 48 + n else 87 + n)

/-- A character inside quotes: the quote, the backslash and the control characters are escaped. -/
def quotedChar (c : Char) : List Char :=
  if c = '"' then ['\\', '"']
  else if c = '\\' then ['\\', '\\']
  else if c = '\x08' then ['\\', 'b']
  else if c = '\t' then ['\\', 't']
  else if c = '\n' then ['\\', 'n']
  else if c = '\x0c' then ['\\', 'f']
  else if c = '\r' then ['\\', 'r']
  else if c.toNat < 32 then ['\\', 'u', '0', '0', hexChar (c.toNat / 16), hexChar (c.toNat % 16)]
  else [c]

def quoted (s : String) : List Char := '"' :: s.toList.flatMap quotedChar ++ ['"']

/-- A text that spells no string is written as the empty one. -/
def quoted? (s : Option String) : List Char := quoted (s.getD "")

mutual
def compactChars : Json → List Char
  | null => ['n', 'u', 'l', 'l']
  | bool true => ['t', 'r', 'u', 'e']
  | bool false => ['f', 'a', 'l', 's', 'e']
  | number n => n.chars
  | text s => quoted? s
  | array items => '[' :: compactItems items ++ [']']
  | object members => '\x7b' :: compactMembers members ++ ['\x7d']
def compactItems : List Json → List Char
  | [] => []
  | [j] => compactChars j
  | j :: rest => compactChars j ++ ',' :: compactItems rest
def compactMembers : List (Option String × Json) → List Char
  | [] => []
  | [(k, j)] => quoted? k ++ ':' :: compactChars j
  | (k, j) :: rest => quoted? k ++ ':' :: (compactChars j ++ ',' :: compactMembers rest)
end

def compact (j : Json) : String := String.ofList j.compactChars

def newline (depth : Nat) : List Char := '\n' :: List.replicate (2 * depth) ' '

mutual
def prettyChars (depth : Nat) : Json → List Char
  | array (j :: rest) => '[' :: prettyItems (depth + 1) (j :: rest) ++ newline depth ++ [']']
  | object (m :: rest) =>
    '\x7b' :: prettyMembers (depth + 1) (m :: rest) ++ newline depth ++ ['\x7d']
  | array [] => ['[', ']']
  | object [] => ['\x7b', '\x7d']
  | null => ['n', 'u', 'l', 'l']
  | bool true => ['t', 'r', 'u', 'e']
  | bool false => ['f', 'a', 'l', 's', 'e']
  | number n => n.chars
  | text s => quoted? s
def prettyItems (depth : Nat) : List Json → List Char
  | [] => []
  | [j] => newline depth ++ prettyChars depth j
  | j :: rest => newline depth ++ prettyChars depth j ++ ',' :: prettyItems depth rest
def prettyMembers (depth : Nat) : List (Option String × Json) → List Char
  | [] => []
  | [(k, j)] => newline depth ++ quoted? k ++ ':' :: ' ' :: prettyChars depth j
  | (k, j) :: rest =>
    newline depth ++ quoted? k ++ ':' :: ' ' :: (prettyChars depth j
      ++ ',' :: prettyMembers depth rest)
end

def pretty (j : Json) : String := String.ofList (j.prettyChars 0)

end Json
end Whereabouts
