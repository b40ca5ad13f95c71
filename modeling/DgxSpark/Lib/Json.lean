import Mathlib
import DgxSpark.Lib.Text

/-!
# JSON values as a dynamically typed program sees them

A JSON document is a tree, and a program that receives one without a schema asks it
questions: is this a mapping, what is under this key, is it true in a condition, what
is its text, is it equal to that one. The answers here are Python's, since a value
decoded by `json.loads` is used through them:

* a lookup of a missing key is `None`, which is also what JSON's `null` decodes to, so
  `DgxSpark.Json.get` cannot tell the two apart;
* equality does not see the order of keys (`DgxSpark.Json.pyEq`), and `True == 1`;
* `str` of a container is its Python display (`DgxSpark.Json.pyStr`).

Objects are association lists, in the order the document has them. A decoded object
never repeats a key. A float is kept as its literal, and its rounding to binary is not
modelled.

`DgxSpark.Json.sortKeys` puts every object of a tree in key order. It is what
serialization with `sort_keys` applies first, so two values with the same sorted tree
have the same canonical text.
-/

namespace DgxSpark

/-- A JSON document. -/
inductive Json where
  | null
  | bool (b : Bool)
  | int (n : Int)
  /-- a number written with a fraction or an exponent, kept as written -/
  | float (lit : String)
  | str (s : String)
  | arr (items : List Json)
  | obj (members : List (String × Json))
deriving Inhabited, Repr

namespace Json

/-! ### Decidable equality -/

mutual

/-- Structural equality of documents. -/
def beq : Json → Json → Bool
  | .null, .null => true
  | .bool a, .bool b => a == b
  | .int a, .int b => a == b
  | .float a, .float b => a == b
  | .str a, .str b => a == b
  | .arr a, .arr b => beqItems a b
  | .obj a, .obj b => beqMembers a b
  | _, _ => false

/-- Structural equality of item lists. -/
def beqItems : List Json → List Json → Bool
  | [], [] => true
  | x :: xs, y :: ys => beq x y && beqItems xs ys
  | _, _ => false

/-- Structural equality of member lists. -/
def beqMembers : List (String × Json) → List (String × Json) → Bool
  | [], [] => true
  | (k, x) :: xs, (l, y) :: ys => k == l && beq x y && beqMembers xs ys
  | _, _ => false

end

mutual

theorem beq_iff : ∀ a b : Json, beq a b = true ↔ a = b
  | .null, b => by cases b <;> simp [beq]
  | .bool _, b => by cases b <;> simp [beq]
  | .int _, b => by cases b <;> simp [beq]
  | .float _, b => by cases b <;> simp [beq]
  | .str _, b => by cases b <;> simp [beq]
  | .arr xs, b => by cases b <;> simp [beq, beqItems_iff]
  | .obj xs, b => by cases b <;> simp [beq, beqMembers_iff]

theorem beqItems_iff : ∀ a b : List Json, beqItems a b = true ↔ a = b
  | [], b => by cases b <;> simp [beqItems]
  | x :: xs, b => by cases b <;> simp [beqItems, beq_iff, beqItems_iff]

theorem beqMembers_iff : ∀ a b : List (String × Json), beqMembers a b = true ↔ a = b
  | [], b => by cases b <;> simp [beqMembers]
  | (k, x) :: xs, b => by
    rcases b with - | ⟨⟨l, y⟩, ys⟩
    · simp [beqMembers]
    · simp [beqMembers, beq_iff, beqMembers_iff, and_assoc]

end

instance : DecidableEq Json := fun a b => decidable_of_iff _ (beq_iff a b)

/-! ### Questions a program asks -/

/-- `isinstance(value, Mapping)`. -/
def isMapping : Json → Bool
  | .obj _ => true
  | _ => false

/-- The members of a mapping; a value that is none has no members. -/
def members : Json → List (String × Json)
  | .obj kvs => kvs
  | _ => []

/-- The value under a key, when the key is present: `key in value` and its lookup. -/
def find? (j : Json) (key : String) : Option Json :=
  j.members.lookup key

/-- `value.get(key)`: a missing key reads as `None`. -/
def get (j : Json) (key : String) : Json :=
  (j.find? key).getD .null

/-- `value.get(key, default)`: only a missing key reads as the default. -/
def getD (j : Json) (key : String) (default : Json) : Json :=
  (j.find? key).getD default

/-- `key in value` for a mapping. -/
def hasKey (j : Json) (key : String) : Bool :=
  (j.find? key).isSome

/-- `bool(value)`. -/
def truthy : Json → Bool
  | .null => false
  | .bool b => b
  | .int n => n != 0
  | .float lit => !((Text.chars lit).all fun c => c == '0' || c == '.' || c == '-')
  | .str s => s != ""
  | .arr xs => !xs.isEmpty
  | .obj kvs => !kvs.isEmpty

/-- The text of a value that is a string. -/
def asStr? : Json → Option String
  | .str s => some s
  | _ => none

/-- The items of a value that is a list. -/
def asArr? : Json → Option (List Json)
  | .arr xs => some xs
  | _ => none

/-- A list of strings as a document. -/
def ofStrings (xs : List String) : Json :=
  .arr (xs.map .str)

/-- An optional text, absent as `null`. -/
def ofOption (f : α → Json) : Option α → Json
  | none => .null
  | some a => f a

/-! ### The text of a value -/

/-- One character inside a string display, in the given quotes. -/
def reprChar (quote : Char) (c : Char) : List Char :=
  if c = quote then ['\\', quote]
  else if c = '\\' then ['\\', '\\']
  else if c = '\n' then ['\\', 'n']
  else if c = '\r' then ['\\', 'r']
  else if c = '\t' then ['\\', 't']
  else if c.toNat < 32 ∨ c.toNat = 127 then
    ['\\', 'x', Nat.digitChar (c.toNat / 16), Nat.digitChar (c.toNat % 16)]
  else [c]

/-- `repr` of a string: single quotes unless the text has only single ones. -/
def reprStr (s : String) : String :=
  let cs := Text.chars s
  let quote := if cs.contains '\'' && !cs.contains '"' then '"' else '\''
  String.ofList ([quote] ++ cs.flatMap (reprChar quote) ++ [quote])

mutual

/-- `repr(value)`. -/
def pyRepr : Json → String
  | .null => "None"
  | .bool true => "True"
  | .bool false => "False"
  | .int n => toString n
  | .float lit => lit
  | .str s => reprStr s
  | .arr xs => "[" ++ String.intercalate ", " (pyReprItems xs) ++ "]"
  | .obj kvs => "\x7b" ++ String.intercalate ", " (pyReprMembers kvs) ++ "\x7d"

/-- The displays of the items of a list. -/
def pyReprItems : List Json → List String
  | [] => []
  | x :: xs => pyRepr x :: pyReprItems xs

/-- The displays of the members of a mapping. -/
def pyReprMembers : List (String × Json) → List String
  | [] => []
  | (k, x) :: xs => (reprStr k ++ ": " ++ pyRepr x) :: pyReprMembers xs

end

/-- `str(value)`: a string is its own text, anything else its display. -/
def pyStr : Json → String
  | .str s => s
  | j => pyRepr j

@[simp] theorem pyStr_str (s : String) : pyStr (.str s) = s := rfl

@[simp] theorem get_obj_nil (key : String) : (obj []).get key = .null := rfl

@[simp] theorem get_obj_cons (k key : String) (v : Json) (kvs : List (String × Json)) :
    (obj ((k, v) :: kvs)).get key = if key = k then v else (obj kvs).get key := by
  by_cases h : key = k
  · simp [get, find?, members, h]
  · have hb : (key == k) = false := by simpa using h
    simp [get, find?, members, List.lookup, hb, h]

/-! ### Numbers out of values -/

/-- The digits of a text in which single underscores may separate digits. -/
def digitsOf : List Char → Option (List Char)
  | [] => none
  | [c] => if Text.isDecimal c then some [c] else none
  | c :: '_' :: cs => if Text.isDecimal c then (digitsOf cs).map (c :: ·) else none
  | c :: cs => if Text.isDecimal c then (digitsOf cs).map (c :: ·) else none

/-- The white space that `int` passes over: that of `str.strip` without the four separators of
ASCII. -/
def isIntSpace (c : Char) : Bool :=
  Text.isSpace c && !(28 ≤ c.toNat && c.toNat ≤ 31)

/-- `int(text)`: white space around it, a sign, digits. -/
def intOfText (s : String) : Option Int :=
  let number := fun cs => (digitsOf cs).map fun ds => (Nat.ofDigitChars 10 ds 0 : Int)
  match Text.rstripWhile isIntSpace ((Text.chars s).dropWhile isIntSpace) with
  | '-' :: cs => (number cs).map Neg.neg
  | '+' :: cs => number cs
  | cs => number cs

/-- The integer part of a float literal; the literals without one are the infinities and
the number that is none. -/
def truncLit (lit : String) : Option Int :=
  let cs := Text.chars lit
  let body := cs.dropWhile (· == '-')
  let mantissa := body.takeWhile fun c => c != 'e' && c != 'E'
  let whole := mantissa.takeWhile (· != '.')
  let fraction := (mantissa.dropWhile (· != '.')).drop 1
  match intOfText (String.ofList ((body.drop (mantissa.length + 1)))),
      whole.all Text.isDecimal && !whole.isEmpty with
  | _, false => none
  | exponent, true =>
    let e : Int := (exponent.getD 0) - fraction.length
    let n : Int := Nat.ofDigitChars 10 (whole ++ fraction) 0
    let v := if 0 ≤ e then n * 10 ^ e.toNat else n / 10 ^ (-e).toNat
    some (if cs.head? = some '-' then -v else v)

/-- `int(value)`, when it is defined. -/
def toInt? : Json → Option Int
  | .int n => some n
  | .bool b => some (if b then 1 else 0)
  | .float lit => truncLit lit
  | .str s => intOfText s
  | _ => none

/-- The items a `for` loop over the value sees: those of a list, the characters of a text,
the keys of a mapping. Nothing else can be iterated over. -/
def iter? : Json → Option (List Json)
  | .arr xs => some xs
  | .str s => some ((Text.chars s).map fun c => .str (String.ofList [c]))
  | .obj kvs => some (kvs.map fun p => .str p.1)
  | _ => none

/-- Whether the value can be looked up in a set. -/
def hashable : Json → Bool
  | .arr _ => false
  | .obj _ => false
  | _ => true

/-! ### Equality in the sense of Python -/

/-- The number a boolean is, for comparison with an integer. -/
def boolInt (b : Bool) : Int :=
  if b then 1 else 0

mutual

/-- `a == b`: containers by content, mappings without regard to order, and the booleans
equal to the numbers `0` and `1`. An integer equals the float written as it with `.0`. -/
def pyEq : Json → Json → Bool
  | .null, .null => true
  | .bool a, .bool b => a == b
  | .bool a, .int b => boolInt a == b
  | .int a, .bool b => a == boolInt b
  | .int a, .int b => a == b
  | .int a, .float b => toString a ++ ".0" == b
  | .float a, .int b => a == toString b ++ ".0"
  | .bool a, .float b => toString (boolInt a) ++ ".0" == b
  | .float a, .bool b => a == toString (boolInt b) ++ ".0"
  | .float a, .float b => a == b
  | .str a, .str b => a == b
  | .arr a, .arr b => pyEqItems a b
  | .obj a, .obj b => a.length == b.length && pyEqMembers a b
  | _, _ => false

/-- Equality of two lists, item by item. -/
def pyEqItems : List Json → List Json → Bool
  | [], [] => true
  | x :: xs, y :: ys => pyEq x y && pyEqItems xs ys
  | _, _ => false

/-- Every member on the left is found, with an equal value, on the right. -/
def pyEqMembers : List (String × Json) → List (String × Json) → Bool
  | [], _ => true
  | (k, x) :: xs, b =>
    (match b.lookup k with
      | some y => pyEq x y
      | none => false) && pyEqMembers xs b

end

/-! ### Assembling mappings -/

/-- The keys of a member list. -/
def keys (kvs : List (String × Json)) : List String :=
  kvs.map Prod.fst

/-- Assignment to a key: in place when the key is there, at the end when it is new. -/
def setKey (key : String) (v : Json) : List (String × Json) → List (String × Json)
  | [] => [(key, v)]
  | (k, x) :: kvs => if k = key then (key, v) :: kvs else (k, x) :: setKey key v kvs

/-- A mapping without one key. -/
def eraseKey (key : String) (kvs : List (String × Json)) : List (String × Json) :=
  kvs.filter fun p => p.1 != key

/-- The members under a list of keys, in the order of that list, absent keys dropped. -/
def selectKeys (ks : List String) (j : Json) : List (String × Json) :=
  ks.filterMap fun k => (j.find? k).map fun v => (k, v)

/-! ### Key order -/

/-- Comparison of members by key. -/
def keyLe (a b : String × Json) : Prop :=
  a.1 ≤ b.1

instance : DecidableRel keyLe := fun a b => Text.decidableLe a.1 b.1

mutual

/-- The tree with every object in key order. -/
def sortKeys : Json → Json
  | .arr xs => .arr (sortItems xs)
  | .obj kvs => .obj ((sortMembers kvs).insertionSort keyLe)
  | j => j

/-- `sortKeys` on every item. -/
def sortItems : List Json → List Json
  | [] => []
  | x :: xs => sortKeys x :: sortItems xs

/-- `sortKeys` on every value. -/
def sortMembers : List (String × Json) → List (String × Json)
  | [] => []
  | (k, x) :: xs => (k, sortKeys x) :: sortMembers xs

end

end Json

end DgxSpark
