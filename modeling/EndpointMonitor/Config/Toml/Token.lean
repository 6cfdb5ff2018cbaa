import EndpointMonitor.Binary64

/-!
The words of a TOML document: blanks, comments, keys, strings, numbers and dates. Each reader gives
what it has read and the rest of the text.
-/

namespace EndpointMonitor.Toml

/-- Reads something from the front of a text. -/
abbrev Reader (α : Type) := List Char → Option (α × List Char)

def isBlank (c : Char) : Bool := c = ' ' || c = '\t'

def skipBlanks (s : List Char) : List Char := s.dropWhile isBlank

/-- Characters of comments and literal strings: no control character but the tab. -/
def isPlain (c : Char) : Bool := c = '\t' || (0x20 ≤ c.toNat && c.toNat ≠ 0x7f)

/-- Skips a comment up to the end of its line. -/
def skipComment : List Char → List Char
  | '#' :: rest => rest.dropWhile isPlain
  | s => s

/-- The rest of the text after the end of a line, in front of which may stand a comment. -/
def lineEnd? (s : List Char) : Option (List Char) :=
  match skipComment (skipBlanks s) with
  | [] => some []
  | '\n' :: rest => some rest
  | '\r' :: '\n' :: rest => some rest
  | _ => none

/-- Skips blanks, line ends and comments. -/
def skipFiller (inComment : Bool) : List Char → List Char
  | [] => []
  | '\n' :: rest => skipFiller false rest
  | '\r' :: '\n' :: rest => skipFiller false rest
  | c :: rest =>
    if inComment then if isPlain c then skipFiller true rest else c :: rest
    else if isBlank c then skipFiller false rest
    else if c = '#' then skipFiller true rest
    else c :: rest

def hexDigit? (c : Char) : Option Nat :=
  if '0' ≤ c ∧ c ≤ '9' then some (c.toNat - 48)
  else if 'a' ≤ c ∧ c ≤ 'f' then some (c.toNat - 87)
  else if 'A' ≤ c ∧ c ≤ 'F' then some (c.toNat - 55)
  else none

/-- The character with the code in hexadecimal digits, if there is one. -/
def codeChar? (digits : List Char) : Option Char := do
  let code ← digits.foldlM (fun n c => (hexDigit? c).map (n * 16 + ·)) 0
  if code.isValidChar then some (Char.ofNat code) else none

/-- The character of a one-letter escape. -/
def escaped? (c : Char) : Option Char :=
  match c with
  | 'b' => some '\x08'
  | 't' => some '\t'
  | 'n' => some '\n'
  | 'f' => some '\x0c'
  | 'r' => some '\r'
  | '"' => some '"'
  | '\\' => some '\\'
  | _ => none

/-- The rest of a basic string after its opening quote. -/
def basicString : Reader (List Char)
  | '"' :: rest => some ([], rest)
  | '\\' :: 'u' :: a :: b :: c :: d :: rest => do
    let char ← codeChar? [a, b, c, d]
    let (chars, rest) ← basicString rest
    pure (char :: chars, rest)
  | '\\' :: 'U' :: a :: b :: c :: d :: e :: f :: g :: h :: rest => do
    let char ← codeChar? [a, b, c, d, e, f, g, h]
    let (chars, rest) ← basicString rest
    pure (char :: chars, rest)
  | '\\' :: c :: rest => do
    let char ← escaped? c
    let (chars, rest) ← basicString rest
    pure (char :: chars, rest)
  | c :: rest => do
    if c = '\\' || !isPlain c then none
    else
      let (chars, rest) ← basicString rest
      pure (c :: chars, rest)
  | [] => none

/-- The rest of a literal string after its opening quote. -/
def literalString : Reader (List Char)
  | '\'' :: rest => some ([], rest)
  | c :: rest => do
    if isPlain c then
      let (chars, rest) ← literalString rest
      pure (c :: chars, rest)
    else none
  | [] => none

/-- The end of a string of several lines. One or two quotes in front of the last three belong to
the string. -/
def closing? (quote : Char) : Reader (List Char)
  | a :: b :: c :: rest =>
    if a = quote && b = quote && c = quote then
      match rest with
      | d :: e :: rest' =>
        if d = quote && e = quote then some ([quote, quote], rest')
        else if d = quote then some ([quote], e :: rest')
        else some ([], rest)
      | [d] => if d = quote then some ([quote], []) else some ([], rest)
      | [] => some ([], [])
    else none
  | _ => none

/-- A line end right after the opening quotes is no part of the string. -/
def dropFirstLineEnd : List Char → List Char
  | '\n' :: rest => rest
  | '\r' :: '\n' :: rest => rest
  | s => s

/-- Skips blanks and line ends. -/
def skipLines : List Char → List Char
  | '\r' :: '\n' :: rest => skipLines rest
  | c :: rest => if isBlank c || c = '\n' then skipLines rest else c :: rest
  | [] => []

/-- After a backslash at the end of a line all blanks and line ends are skipped. -/
def skipLines? (s : List Char) : Option (List Char) :=
  match skipBlanks s with
  | '\n' :: rest => some (skipLines rest)
  | '\r' :: '\n' :: rest => some (skipLines rest)
  | _ => none

/-- The rest of a basic string of several lines. -/
def basicLines (fuel : Nat) (s : List Char) : Option (List Char × List Char) :=
  match fuel with
  | 0 => none
  | fuel + 1 =>
    match closing? '"' s with
    | some end? => some end?
    | none => do
      let (char, rest) ← match s with
        | '\\' :: 'u' :: a :: b :: c :: d :: rest =>
          (codeChar? [a, b, c, d]).map fun char => ([char], rest)
        | '\\' :: 'U' :: a :: b :: c :: d :: e :: f :: g :: h :: rest =>
          (codeChar? [a, b, c, d, e, f, g, h]).map fun char => ([char], rest)
        | '\\' :: c :: rest =>
          match escaped? c with
          | some char => some ([char], rest)
          | none => (skipLines? (c :: rest)).map fun rest => ([], rest)
        | '\n' :: rest => some (['\n'], rest)
        | '\r' :: '\n' :: rest => some (['\r', '\n'], rest)
        | c :: rest => if c ≠ '\\' && isPlain c then some ([c], rest) else none
        | [] => none
      let (chars, rest) ← basicLines fuel rest
      pure (char ++ chars, rest)

/-- The rest of a literal string of several lines. -/
def literalLines (fuel : Nat) (s : List Char) : Option (List Char × List Char) :=
  match fuel with
  | 0 => none
  | fuel + 1 =>
    match closing? '\'' s with
    | some end? => some end?
    | none => do
      let (char, rest) ← match s with
        | '\n' :: rest => some (['\n'], rest)
        | '\r' :: '\n' :: rest => some (['\r', '\n'], rest)
        | c :: rest => if isPlain c then some ([c], rest) else none
        | [] => none
      let (chars, rest) ← literalLines fuel rest
      pure (char ++ chars, rest)

/-- A string in any of its four forms. -/
def string? : Reader (List Char)
  | '"' :: '"' :: '"' :: rest => basicLines (rest.length + 1) (dropFirstLineEnd rest)
  | '"' :: rest => basicString rest
  | '\'' :: '\'' :: '\'' :: rest => literalLines (rest.length + 1) (dropFirstLineEnd rest)
  | '\'' :: rest => literalString rest
  | _ => none

def isBareKey (c : Char) : Bool := c.isAlphanum || c = '_' || c = '-'

/-- One part of a key. -/
def simpleKey : Reader String
  | '"' :: rest => (basicString rest).map fun (chars, rest) => (String.ofList chars, rest)
  | '\'' :: rest => (literalString rest).map fun (chars, rest) => (String.ofList chars, rest)
  | s =>
    let chars := s.takeWhile isBareKey
    if chars.isEmpty then none else some (String.ofList chars, s.dropWhile isBareKey)

/-- The parts of a key and the blanks around it. -/
def keyParts (fuel : Nat) (s : List Char) : Option (List String × List Char) :=
  match fuel with
  | 0 => none
  | fuel + 1 => do
    let (part, rest) ← simpleKey (skipBlanks s)
    match skipBlanks rest with
    | '.' :: rest =>
      let (parts, rest) ← keyParts fuel rest
      pure (part :: parts, rest)
    | rest => pure ([part], rest)

/-- How deep keys and values may nest. -/
def depthLimit : Nat := 80

/-- A key, in parts. -/
def key? (s : List Char) : Option (List String × List Char) := do
  let (parts, rest) ← keyParts s.length s
  if parts.length < depthLimit then pure (parts, rest) else none

def isDigit (c : Char) : Bool := '0' ≤ c && c ≤ '9'

def digitValue (c : Char) : Nat := c.toNat - 48

/-- Digits with single underscores between them, after the first digit. -/
def moreDigits (ok : Char → Bool) : List Char → List Char × List Char
  | '_' :: c :: rest =>
    if ok c then
      let (digits, rest) := moreDigits ok rest
      (c :: digits, rest)
    else ([], '_' :: c :: rest)
  | c :: rest =>
    if ok c then
      let (digits, rest) := moreDigits ok rest
      (c :: digits, rest)
    else ([], c :: rest)
  | [] => ([], [])

/-- Digits of one kind, at least one. -/
def digits? (ok : Char → Bool) : Reader (List Char)
  | c :: rest =>
    if ok c then
      let (digits, rest) := moreDigits ok rest
      some (c :: digits, rest)
    else none
  | [] => none

/-- The digits of a decimal number, without leading zeros. -/
def wholeDigits? : Reader (List Char)
  | '0' :: rest => some (['0'], rest)
  | s => digits? isDigit s

/-- A sign, and whether it is a minus. -/
def sign : List Char → Bool × List Char
  | '+' :: rest => (false, rest)
  | '-' :: rest => (true, rest)
  | s => (false, s)

def numeral (base : Nat) (digits : List Char) : Nat :=
  digits.foldl (fun n c => n * base + (hexDigit? c).getD 0) 0

def minInteger : Int := Int64.minValue.toInt

def maxInteger : Int := Int64.maxValue.toInt

/-- Integers have 64 bits. -/
def checked (n : Int) : Option Int64 :=
  if minInteger ≤ n ∧ n ≤ maxInteger then some (Int64.ofInt n) else none

def integer? : Reader Int64
  | '0' :: 'x' :: rest => do
    let (digits, rest) ← digits? (fun c => (hexDigit? c).isSome) rest
    (checked (numeral 16 digits)).map (·, rest)
  | '0' :: 'o' :: rest => do
    let (digits, rest) ← digits? (fun c => '0' ≤ c && c ≤ '7') rest
    (checked (numeral 8 digits)).map (·, rest)
  | '0' :: 'b' :: rest => do
    let (digits, rest) ← digits? (fun c => c = '0' || c = '1') rest
    (checked (numeral 2 digits)).map (·, rest)
  | s => do
    let (negative, s) := sign s
    let (digits, rest) ← wholeDigits? s
    let n : Int := numeral 10 digits
    (checked (if negative then -n else n)).map (·, rest)

/-- An exponent, if the letter for it follows. -/
def exponent? : Reader Int
  | c :: rest => do
    if c = 'e' || c = 'E' then
      let (negative, rest) := sign rest
      let (digits, rest) ← digits? isDigit rest
      let n : Int := numeral 10 digits
      pure (if negative then -n else n, rest)
    else none
  | [] => none

/-- Whether `significand · 10 ^ exponent` rounds to a finite double. -/
def isFinite (significand : Nat) (exponent : Int) : Bool :=
  if significand = 0 then true
  else if exponent < 0 then
    if exponent.natAbs ≤ significand.log2 then
      let power := Nat.pow 10 exponent.natAbs
      Binary64.nearest (significand * Binary64.one) power < Binary64.overflow
    else true
  else
    exponent ≤ 308 &&
      Binary64.ofNat (significand * Nat.pow 10 exponent.toNat) < Binary64.overflow

/-- A number with a fraction or an exponent. A positive one has to be finite. -/
def float? (s : List Char) : Option (Unit × List Char) := do
  let (negative, s) := sign s
  match s with
  | 'i' :: 'n' :: 'f' :: rest => pure ((), rest)
  | 'n' :: 'a' :: 'n' :: rest => pure ((), rest)
  | s =>
    let (whole, rest) ← wholeDigits? s
    let (fraction, exponent, rest) ← match rest with
      | '.' :: rest => do
        let (fraction, rest) ← digits? isDigit rest
        match exponent? rest with
        | some (exponent, rest) => some (fraction, exponent, rest)
        | none => some (fraction, 0, rest)
      | rest => (exponent? rest).map fun (exponent, rest) => ([], exponent, rest)
    if negative || isFinite (numeral 10 (whole ++ fraction)) (exponent - fraction.length) then
      pure ((), rest)
    else none

/-- A number of exactly two digits within bounds. -/
def twoDigits? (low high : Nat) : Reader Nat
  | a :: b :: rest =>
    let n := digitValue a * 10 + digitValue b
    if isDigit a && isDigit b && low ≤ n && n ≤ high then some (n, rest) else none
  | _ => none

def daysIn (year month : Nat) : Nat :=
  match month with
  | 2 => if year % 4 = 0 ∧ (year % 100 ≠ 0 ∨ year % 400 = 0) then 29 else 28
  | 4 | 6 | 9 | 11 => 30
  | _ => 31

def expect (c : Char) : List Char → Option (List Char)
  | d :: rest => if d = c then some rest else none
  | [] => none

/-- A calendar date. -/
def date? : List Char → Option (List Char)
  | a :: b :: c :: d :: '-' :: rest => do
    if [a, b, c, d].all isDigit then
      let year := numeral 10 [a, b, c, d]
      let (month, rest) ← twoDigits? 1 12 rest
      let rest ← expect '-' rest
      let (_, rest) ← twoDigits? 1 (daysIn year month) rest
      pure rest
    else none
  | _ => none

/-- A time of day; its fraction of a second may have any number of digits. -/
def time? (s : List Char) : Option (List Char) := do
  let (_, rest) ← twoDigits? 0 23 s
  let rest ← expect ':' rest
  let (_, rest) ← twoDigits? 0 59 rest
  let rest ← expect ':' rest
  let (_, rest) ← twoDigits? 0 60 rest
  match rest with
  | '.' :: c :: rest => if isDigit c then pure (rest.dropWhile isDigit) else none
  | '.' :: [] => none
  | rest => pure rest

/-- The offset of a time zone, if one follows. -/
def zone? : List Char → Option (List Char)
  | 'Z' :: rest => some rest
  | 'z' :: rest => some rest
  | c :: rest =>
    if c = '+' || c = '-' then do
      let (_, rest) ← twoDigits? 0 23 rest
      let rest ← expect ':' rest
      let (_, rest) ← twoDigits? 0 59 rest
      pure rest
    else some (c :: rest)
  | [] => some []

/-- Whether what follows a date is a time. -/
def startsTime : List Char → Bool
  | t :: a :: b :: ':' :: _ => (t = 'T' || t = 't' || t = ' ') && (twoDigits? 0 23 [a, b]).isSome
  | _ => false

/-- A date, a time, or both with or without an offset. -/
def moment? (s : List Char) : Option (Unit × List Char) :=
  match date? s with
  | some rest =>
    if startsTime rest then do
      let rest ← time? (rest.drop 1)
      let rest ← zone? rest
      pure ((), rest)
    else some ((), rest)
  | none => (time? s).map ((), ·)

end EndpointMonitor.Toml
