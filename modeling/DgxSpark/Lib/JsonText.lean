import DgxSpark.Lib.Json

/-!
# Reading and writing JSON text

`DgxSpark.Json.dumps` writes a document and `DgxSpark.Json.loads` reads one back. The
writer escapes everything outside printable ASCII, sorts keys, and comes in two layouts:
the compact one, whose text is canonical and gets hashed, and an indented one for files.
The reader accepts any JSON text, with any white space, keeps the last of repeated keys,
and rejects everything else.

The point of the file is that nothing is lost in between
(`DgxSpark.Json.loads_dumps`): reading what was written gives back the document with its
keys sorted, in either layout, for every well-formed document
(`DgxSpark.Json.WF`: no repeated keys, float literals that are float literals).

| | |
|---|---|
| the layouts | `DgxSpark.Json.compact`, `DgxSpark.Json.indented` |
| the writer | `DgxSpark.Json.print`, `DgxSpark.Json.dumps`, `DgxSpark.Json.canonical` |
| the reader | `DgxSpark.Json.parseValue`, `DgxSpark.Json.loads` |

One thing Python can represent and a list of characters cannot: a lone surrogate written
as an escape. The reader rejects it.
-/

namespace DgxSpark

namespace Json

/-! ### Writing -/

/-- The four hexadecimal digits of a code unit. -/
def hex4 (n : Nat) : List Char :=
  [Nat.digitChar (n / 4096 % 16), Nat.digitChar (n / 256 % 16), Nat.digitChar (n / 16 % 16),
    Nat.digitChar (n % 16)]

/-- A code unit as an escape. -/
def unitEscape (n : Nat) : List Char :=
  '\\' :: 'u' :: hex4 n

/-- One character inside a JSON string, with `ensure_ascii`. A character beyond the
basic plane is a surrogate pair. -/
def escapeChar (c : Char) : List Char :=
  if c = '"' then ['\\', '"']
  else if c = '\\' then ['\\', '\\']
  else if c = '\n' then ['\\', 'n']
  else if c = '\r' then ['\\', 'r']
  else if c = '\t' then ['\\', 't']
  else if c.toNat = 8 then ['\\', 'b']
  else if c.toNat = 12 then ['\\', 'f']
  else if 32 ≤ c.toNat ∧ c.toNat ≤ 126 then [c]
  else if c.toNat < 0x10000 then unitEscape c.toNat
  else unitEscape (0xd800 + (c.toNat - 0x10000) / 0x400) ++
    unitEscape (0xdc00 + (c.toNat - 0x10000) % 0x400)

/-- A string with its quotes. -/
def printStr (s : String) : List Char :=
  '"' :: ((Text.chars s).flatMap escapeChar ++ ['"'])

/-- The digits of an integer. -/
def printInt : Int → List Char
  | .ofNat n => Nat.toDigits 10 n
  | .negSucc n => '-' :: Nat.toDigits 10 (n + 1)

/-- Where white space goes: what precedes the items of a container at a depth, what
precedes its closing bracket, and what follows the colon of a member. -/
structure Layout where
  /-- before an item at a depth -/
  item : Nat → List Char
  /-- after a colon -/
  colon : List Char

/-- `separators=(",", ":")`: no white space at all. -/
def compact : Layout := ⟨fun _ => [], []⟩

/-- `indent=2`: a line for each item. -/
def indented : Layout := ⟨fun d => '\n' :: List.replicate (2 * d) ' ', [' ']⟩

mutual

/-- The text of a document at a depth. -/
def print (l : Layout) (d : Nat) : Json → List Char
  | .null => ['n', 'u', 'l', 'l']
  | .bool true => ['t', 'r', 'u', 'e']
  | .bool false => ['f', 'a', 'l', 's', 'e']
  | .int n => printInt n
  | .float lit => Text.chars lit
  | .str s => printStr s
  | .arr [] => ['[', ']']
  | .arr (x :: xs) =>
    '[' :: (l.item (d + 1) ++ print l (d + 1) x ++ printItems l (d + 1) xs ++ l.item d ++ [']'])
  | .obj [] => ['{', '}']
  | .obj ((k, x) :: xs) =>
    '{' :: (l.item (d + 1) ++ printStr k ++ ':' :: (l.colon ++ print l (d + 1) x) ++
      printMembers l (d + 1) xs ++ l.item d ++ ['}'])

/-- The items after the first, each with its comma. -/
def printItems (l : Layout) (d : Nat) : List Json → List Char
  | [] => []
  | x :: xs => ',' :: (l.item d ++ print l d x ++ printItems l d xs)

/-- The members after the first, each with its comma. -/
def printMembers (l : Layout) (d : Nat) : List (String × Json) → List Char
  | [] => []
  | (k, x) :: xs =>
    ',' :: (l.item d ++ printStr k ++ ':' :: (l.colon ++ print l d x) ++ printMembers l d xs)

end

/-- `json.dumps` with `sort_keys=True` in a layout. -/
def dumps (l : Layout) (j : Json) : String :=
  String.ofList (print l 0 j.sortKeys)

/-- The canonical text of a document, the one that is hashed. -/
def canonical (j : Json) : String :=
  dumps compact j

/-! ### Reading strings -/

/-- What a JSON string is made of: characters, and code units given by escapes. -/
inductive Piece where
  | chr (c : Char)
  | unit (n : Nat)
deriving DecidableEq

/-- The value of a hexadecimal digit. -/
def hexVal (c : Char) : Option Nat :=
  if '0' ≤ c ∧ c ≤ '9' then some (c.toNat - 48)
  else if 'a' ≤ c ∧ c ≤ 'f' then some (c.toNat - 87)
  else if 'A' ≤ c ∧ c ≤ 'F' then some (c.toNat - 55)
  else none

/-- The code unit of four hexadecimal digits. -/
def hexVal4 (a b c d : Char) : Option Nat := do
  let a ← hexVal a
  let b ← hexVal b
  let c ← hexVal c
  let d ← hexVal d
  return a * 4096 + b * 256 + c * 16 + d

/-- The character after a backslash, when the pair stands for one character. -/
def simpleEscape (c : Char) : Option Char :=
  if c = '"' then some '"'
  else if c = '\\' then some '\\'
  else if c = '/' then some '/'
  else if c = 'b' then some (Char.ofNat 8)
  else if c = 'f' then some (Char.ofNat 12)
  else if c = 'n' then some '\n'
  else if c = 'r' then some '\r'
  else if c = 't' then some '\t'
  else none

/-- The pieces of a string up to its closing quote, and the text after it. -/
def scanStr : List Char → Option (List Piece × List Char)
  | [] => none
  | '"' :: r => some ([], r)
  | '\\' :: 'u' :: a :: b :: c :: d :: r =>
    match hexVal4 a b c d, scanStr r with
    | some n, some (ps, r') => some (.unit n :: ps, r')
    | _, _ => none
  | '\\' :: e :: r =>
    match simpleEscape e, scanStr r with
    | some c, some (ps, r') => some (.chr c :: ps, r')
    | _, _ => none
  | c :: r =>
    if c.toNat < 32 ∨ c = '\\' then none
    else (scanStr r).map fun p => (.chr c :: p.1, p.2)

/-- A code unit that opens a surrogate pair. -/
def isHigh (n : Nat) : Bool := 0xd800 ≤ n && n < 0xdc00

/-- A code unit that closes a surrogate pair. -/
def isLow (n : Nat) : Bool := 0xdc00 ≤ n && n < 0xe000

/-- The characters of the pieces: a surrogate pair is one character. -/
def joinPieces : List Piece → Option (List Char)
  | [] => some []
  | .chr c :: ps => (joinPieces ps).map (c :: ·)
  | .unit n :: .unit m :: ps =>
    if isHigh n then
      if isLow m then
        (joinPieces ps).map (Char.ofNat (0x10000 + (n - 0xd800) * 0x400 + (m - 0xdc00)) :: ·)
      else none
    else if isLow n then none
    else (joinPieces (.unit m :: ps)).map (Char.ofNat n :: ·)
  | .unit n :: ps =>
    if isHigh n || isLow n then none else (joinPieces ps).map (Char.ofNat n :: ·)

/-- A string after its opening quote, and the text after it. -/
def parseStr (cs : List Char) : Option (String × List Char) :=
  match scanStr cs with
  | some (ps, r) => (joinPieces ps).map fun s => (String.ofList s, r)
  | none => none

/-! ### Reading numbers -/

/-- The characters a number can consist of. -/
def isNumChar (c : Char) : Bool :=
  c.isDigit || c == '-' || c == '+' || c == '.' || c == 'e' || c == 'E'

/-- Digits without a leading zero. -/
def isIntDigits : List Char → Bool
  | [] => false
  | ['0'] => true
  | '0' :: _ => false
  | cs => cs.all Char.isDigit

/-- An optional minus sign and the rest. -/
def dropMinus : List Char → List Char
  | '-' :: cs => cs
  | cs => cs

/-- An optional sign of an exponent and the rest. -/
def dropSign : List Char → List Char
  | '-' :: cs => cs
  | '+' :: cs => cs
  | cs => cs

/-- An exponent. -/
def isExponent : List Char → Bool
  | 'e' :: cs => !(dropSign cs).isEmpty && (dropSign cs).all Char.isDigit
  | 'E' :: cs => !(dropSign cs).isEmpty && (dropSign cs).all Char.isDigit
  | _ => false

/-- What follows the integer part of a float. -/
def isFraction : List Char → Bool
  | '.' :: cs =>
    !(cs.takeWhile Char.isDigit).isEmpty &&
      ((cs.dropWhile Char.isDigit).isEmpty || isExponent (cs.dropWhile Char.isDigit))
  | cs => isExponent cs

/-- A float literal. -/
def isFloatLit (cs : List Char) : Bool :=
  cs.all isNumChar && isIntDigits ((dropMinus cs).takeWhile Char.isDigit) &&
    isFraction ((dropMinus cs).dropWhile Char.isDigit)

/-- The number a run of number characters is. -/
def classify (tok : List Char) : Option Json :=
  match tok with
  | '-' :: ds =>
    if isIntDigits ds then some (.int (-(Nat.ofDigitChars 10 ds 0 : Nat)))
    else if isFloatLit tok then some (.float (String.ofList tok)) else none
  | ds =>
    if isIntDigits ds then some (.int (Nat.ofDigitChars 10 ds 0 : Nat))
    else if isFloatLit tok then some (.float (String.ofList tok)) else none

/-- A number, and the text after it. -/
def parseNumber (cs : List Char) : Option (Json × List Char) :=
  (classify (cs.takeWhile isNumChar)).map fun j => (j, cs.dropWhile isNumChar)

/-! ### Reading documents -/

/-- JSON white space. -/
def isWs (c : Char) : Bool :=
  c == ' ' || c == '\t' || c == '\n' || c == '\r'

/-- The text after its leading white space. -/
def skipWs (cs : List Char) : List Char :=
  cs.dropWhile isWs

mutual

/-- A document, and the text after it. The fuel bounds the nesting and the number of
items; as many units as there are characters are always enough. -/
def parseValue : Nat → List Char → Option (Json × List Char)
  | 0, _ => none
  | n + 1, cs =>
    match skipWs cs with
    | 'n' :: 'u' :: 'l' :: 'l' :: r => some (.null, r)
    | 't' :: 'r' :: 'u' :: 'e' :: r => some (.bool true, r)
    | 'f' :: 'a' :: 'l' :: 's' :: 'e' :: r => some (.bool false, r)
    | 'N' :: 'a' :: 'N' :: r => some (.float "NaN", r)
    | 'I' :: 'n' :: 'f' :: 'i' :: 'n' :: 'i' :: 't' :: 'y' :: r => some (.float "Infinity", r)
    | '-' :: 'I' :: 'n' :: 'f' :: 'i' :: 'n' :: 'i' :: 't' :: 'y' :: r =>
      some (.float "-Infinity", r)
    | '"' :: r => (parseStr r).map fun p => (.str p.1, p.2)
    | '[' :: r =>
      match skipWs r with
      | ']' :: r' => some (.arr [], r')
      | _ => (parseItems n r).map fun p => (.arr p.1, p.2)
    | '{' :: r =>
      match skipWs r with
      | '}' :: r' => some (.obj [], r')
      | _ => (parseMembers n r []).map fun p => (.obj p.1, p.2)
    | r => parseNumber r

/-- The items of a list up to its closing bracket. -/
def parseItems : Nat → List Char → Option (List Json × List Char)
  | 0, _ => none
  | n + 1, cs =>
    match parseValue n cs with
    | none => none
    | some (x, r) =>
      match skipWs r with
      | ',' :: r' => (parseItems n r').map fun p => (x :: p.1, p.2)
      | ']' :: r' => some ([x], r')
      | _ => none

/-- The members of a mapping up to its closing brace, added to those already read. -/
def parseMembers : Nat → List Char → List (String × Json) →
    Option (List (String × Json) × List Char)
  | 0, _, _ => none
  | n + 1, cs, acc =>
    match skipWs cs with
    | '"' :: r =>
      match parseStr r with
      | none => none
      | some (k, r) =>
        match skipWs r with
        | ':' :: r =>
          match parseValue n r with
          | none => none
          | some (x, r) =>
            match skipWs r with
            | ',' :: r' => parseMembers n r' (setKey k x acc)
            | '}' :: r' => some (setKey k x acc, r')
            | _ => none
        | _ => none
    | _ => none

end

/-- `json.loads`: one document and nothing after it but white space. -/
def loads (s : String) : Option Json :=
  match parseValue ((Text.chars s).length + 1) (Text.chars s) with
  | some (j, r) => if skipWs r = [] then some j else none
  | none => none

end Json

end DgxSpark
