/-!
# Texts and numbers in a configuration file

The four kinds of TOML strings, and TOML integers in four bases.  A reader takes the characters of
a document and returns what it read with the characters behind it.
-/

namespace TableDiff.Toml

def isBlank (c : Char) : Bool := c == ' ' || c == '\t'

/-- Characters that may stand in a comment or a string: no control characters but the tab. -/
def isPlain (c : Char) : Bool := c == '\t' || (32 ≤ c.toNat && c.toNat != 127)

def isBareKey (c : Char) : Bool := c.isAlphanum || c == '_' || c == '-'

/-! ## Strings -/

/-- The character of a code point written in hexadecimal digits. -/
def codePoint? (digits : List Char) : Option Char := do
  let values ← digits.mapM fun c =>
    if c.isDigit then some (c.toNat - '0'.toNat)
    else if 'a' ≤ c ∧ c ≤ 'f' then some (c.toNat - 'a'.toNat + 10)
    else if 'A' ≤ c ∧ c ≤ 'F' then some (c.toNat - 'A'.toNat + 10)
    else none
  let code := values.foldl (fun n d => 16 * n + d) 0
  if code.isValidChar then some (Char.ofNat code) else none

/-- The character that an escape sequence of one letter stands for. -/
def escaped? : Char → Option Char
  | 'b' => some (Char.ofNat 8)
  | 't' => some '\t'
  | 'n' => some '\n'
  | 'f' => some (Char.ofNat 12)
  | 'r' => some '\r'
  | '\x22' => some '\x22'
  | '\\' => some '\\'
  | _ => none

/-- Reads an escape sequence behind its backslash. -/
def readEscape? : List Char → Option (Char × List Char)
  | 'u' :: rest =>
    if rest.length < 4 then none
    else (codePoint? (rest.take 4)).map fun c => (c, rest.drop 4)
  | 'U' :: rest =>
    if rest.length < 8 then none
    else (codePoint? (rest.take 8)).map fun c => (c, rest.drop 8)
  | letter :: rest => (escaped? letter).map fun c => (c, rest)
  | [] => none

/-- Reads up to a closing double quote on the same line. -/
def readBasic? : (fuel : Nat) → List Char → Option (List Char × List Char)
  | 0, _ => none
  | fuel + 1, cs => match cs with
    | '\x22' :: rest => some ([], rest)
    | '\\' :: rest => do
      let (c, rest) ← readEscape? rest
      let (text, rest) ← readBasic? fuel rest
      some (c :: text, rest)
    | c :: rest =>
      if isPlain c then (readBasic? fuel rest).map fun (text, rest) => (c :: text, rest) else none
    | [] => none

/-- Reads up to a closing single quote on the same line; nothing is escaped. -/
def readLiteral? (cs : List Char) : Option (List Char × List Char) :=
  let text := cs.takeWhile fun c => isPlain c && c != '\x27'
  match cs.drop text.length with
  | '\x27' :: rest => some (text, rest)
  | _ => none

/-- A line end: a line feed, or a carriage return with a line feed behind it. -/
def dropLineEnd? : List Char → Option (List Char)
  | '\n' :: rest => some rest
  | '\r' :: '\n' :: rest => some rest
  | _ => none

/-- What follows a line end right behind the opening quotes is the beginning of the text. -/
def dropFirstLineEnd (cs : List Char) : List Char := (dropLineEnd? cs).getD cs

/-- Drops all blanks and line ends. -/
def dropSpace : (fuel : Nat) → List Char → List Char
  | 0, cs => cs
  | fuel + 1, cs =>
    let rest := cs.dropWhile isBlank
    match dropLineEnd? rest with
    | some rest => dropSpace fuel rest
    | none => rest

/-- Reads up to three closing quotes, over several lines.  Up to two quotes more may stand before
the closing ones.  Where `escapes` holds, a backslash at the end of a line joins it with the next
text. -/
def readLines? (quote : Char) (escapes : Bool) :
    (fuel : Nat) → List Char → Option (List Char × List Char)
  | 0, _ => none
  | fuel + 1, cs =>
    let quotes := (cs.takeWhile (· == quote)).length
    if 3 ≤ quotes then
      let kept := min (quotes - 3) 2
      some (List.replicate kept quote, cs.drop (kept + 3))
    else match dropLineEnd? cs with
      | some rest => (readLines? quote escapes fuel rest).map fun (text, rest) =>
        ('\n' :: text, rest)
      | none => match cs with
        | [] => none
        | c :: rest =>
          if escapes ∧ c = '\\' then
            match dropLineEnd? (rest.dropWhile isBlank) with
            | some rest => readLines? quote escapes fuel (dropSpace rest.length rest)
            | none => do
              let (c, rest) ← readEscape? rest
              let (text, rest) ← readLines? quote escapes fuel rest
              some (c :: text, rest)
          else if isPlain c then
            (readLines? quote escapes fuel rest).map fun (text, rest) => (c :: text, rest)
          else none

def readString? : List Char → Option (String × List Char)
  | '\x22' :: '\x22' :: '\x22' :: rest => do
    let (text, rest) ← readLines? '\x22' true (rest.length + 1) (dropFirstLineEnd rest)
    some (String.ofList text, rest)
  | '\x27' :: '\x27' :: '\x27' :: rest => do
    let (text, rest) ← readLines? ('\x27') false (rest.length + 1) (dropFirstLineEnd rest)
    some (String.ofList text, rest)
  | '\x22' :: rest => (readBasic? (rest.length + 1) rest).map fun (text, rest) =>
    (String.ofList text, rest)
  | '\x27' :: rest => (readLiteral? rest).map fun (text, rest) => (String.ofList text, rest)
  | _ => none

/-! ## Integers -/

def digitIn? (base : Nat) (c : Char) : Option Nat :=
  let digit :=
    if c.isDigit then c.toNat - '0'.toNat
    else if 'a' ≤ c ∧ c ≤ 'f' then c.toNat - 'a'.toNat + 10
    else if 'A' ≤ c ∧ c ≤ 'F' then c.toNat - 'A'.toNat + 10
    else base
  if digit < base then some digit else none

/-- The number written by digits in a base.  A single underscore may stand between two digits. -/
def digitsValue? (base : Nat) : (afterDigit : Bool) → (value : Nat) → List Char → Option Nat
  | afterDigit, value, [] => if afterDigit then some value else none
  | afterDigit, value, c :: rest =>
    if c = '_' then if afterDigit then digitsValue? base false value rest else none
    else (digitIn? base c).bind fun d => digitsValue? base true (value * base + d) rest

/-- A decimal number does not begin with a zero, unless it is zero. -/
def decimal? : List Char → Option Nat
  | ['0'] => some 0
  | '0' :: _ => none
  | digits => digitsValue? 10 false 0 digits

/-- Only decimal numbers may have a sign. -/
def integer? : List Char → Option Int
  | '0' :: 'x' :: digits => (digitsValue? 16 false 0 digits).map Int.ofNat
  | '0' :: 'o' :: digits => (digitsValue? 8 false 0 digits).map Int.ofNat
  | '0' :: 'b' :: digits => (digitsValue? 2 false 0 digits).map Int.ofNat
  | '+' :: digits => (decimal? digits).map Int.ofNat
  | '-' :: digits => (decimal? digits).map fun n => -(n : Int)
  | digits => (decimal? digits).map Int.ofNat

/-- Reads an integer of 64 bits. -/
def readInteger? (cs : List Char) : Option (Int × List Char) := do
  let written := cs.takeWhile fun c => c.isAlphanum || c == '_' || c == '+' || c == '-'
  let n ← integer? written
  if Int64.minValue.toInt ≤ n ∧ n ≤ Int64.maxValue.toInt then some (n, cs.drop written.length)
  else none

end TableDiff.Toml
