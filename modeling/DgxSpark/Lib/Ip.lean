import DgxSpark.Lib.Text

/-!
# IP addresses in text

What Python's `ipaddress` accepts as an address and as an address with a prefix length,
and the question whether an address lies in a network. Both versions are covered: four
decimal octets without leading zeros, and eight groups of hexadecimal digits with at most
one elision, a dotted tail and a scope.

`DgxSpark.Ip.parse` reads an address and `DgxSpark.Ip.parseInterface` an address with its
prefix, which for version 4 may also be written as a netmask or as a host mask.
-/

namespace DgxSpark

/-- An IP address: its version and its number. -/
structure Ip where
  v6 : Bool
  value : Nat
deriving DecidableEq, Repr

namespace Ip

/-- The number of bits of an address of a version. -/
def width (v6 : Bool) : Nat :=
  if v6 then 128 else 32

/-! ### Version 4 -/

/-- One octet: up to three digits, no leading zero, at most 255. -/
def parseOctet (cs : List Char) : Option Nat :=
  let n := Nat.ofDigitChars 10 cs 0
  if !cs.isEmpty && cs.all Text.isDecimal && cs.length ≤ 3 && (cs == ['0'] || cs.head? != some '0')
      && n ≤ 255 then some n
  else none

/-- Four octets separated by dots. -/
def parse4 (cs : List Char) : Option Nat :=
  match (cs.splitOn '.').mapM parseOctet with
  | some [a, b, c, d] => some (((a * 256 + b) * 256 + c) * 256 + d)
  | _ => none

/-! ### Version 6 -/

/-- The value of a hexadecimal digit of either case. -/
def hexDigit (c : Char) : Option Nat :=
  if '0' ≤ c ∧ c ≤ '9' then some (c.toNat - 48)
  else if 'a' ≤ c ∧ c ≤ 'f' then some (c.toNat - 87)
  else if 'A' ≤ c ∧ c ≤ 'F' then some (c.toNat - 55)
  else none

/-- A group of one to four hexadecimal digits. -/
def parseGroup (cs : List Char) : Option Nat :=
  if cs.isEmpty || cs.length > 4 then none
  else (cs.mapM hexDigit).map (List.foldl (fun n d => n * 16 + d) 0)

/-- The groups of an address, its dotted tail already turned into two of them. -/
def groups (parts : List (List Char)) : Option (List (Option Nat)) :=
  match parts.getLast? with
  | none => none
  | some l =>
    let parsed := fun cs : List Char =>
      if cs.isEmpty then some none else (parseGroup cs).map some
    if l.contains '.' then do
      let v ← parse4 l
      let init ← parts.dropLast.mapM parsed
      return init ++ [some (v / 65536), some (v % 65536)]
    else parts.mapM parsed

/-- The number of eight groups. -/
def ofGroups (gs : List Nat) : Nat :=
  gs.foldl (fun n g => n * 65536 + g) 0

/-- The positions of the empty groups strictly inside a list of them. -/
def elisions (gs : List (Option Nat)) : List Nat :=
  (List.range gs.length).filter fun i =>
    0 < i && i + 1 < gs.length && gs[i]? == some none

/-- The eight groups of an address whose empty group, if there is one, stands for as many
zeros as are missing. An empty group at either end belongs to the elision next to it. -/
def expand (gs : List (Option Nat)) : Option (List Nat) :=
  match elisions gs with
  | [] => if gs.length = 8 then gs.mapM id else none
  | [i] =>
    let hi := if gs.head? = some none then (if i = 1 then some [] else none) else some (gs.take i)
    let lo := if gs.getLast? = some none then (if i + 2 = gs.length then some [] else none)
      else some (gs.drop (i + 1))
    match hi, lo with
    | some hi, some lo =>
      if hi.length + lo.length < 8 then do
        let hi ← hi.mapM id
        let lo ← lo.mapM id
        return hi ++ List.replicate (8 - (hi.length + lo.length)) 0 ++ lo
      else none
    | _, _ => none
  | _ => none

/-- An address of version 6 without its scope. -/
def parse6Body (cs : List Char) : Option Nat :=
  let parts := cs.splitOn ':'
  if parts.length < 3 then none
  else match groups parts with
    | none => none
    | some gs => if gs.length > 9 then none else (expand gs).map ofGroups

/-- An address of version 6: a scope after a percent sign is allowed and not empty. -/
def parse6 (cs : List Char) : Option Nat :=
  match Text.cutAt '%' cs with
  | none => parse6Body cs
  | some (addr, scope) => if scope.isEmpty || scope.contains '%' then none else parse6Body addr

/-! ### Addresses and interfaces -/

/-- `ipaddress.ip_address`. -/
def parse (s : String) : Option Ip :=
  match parse4 (Text.chars s) with
  | some v => some ⟨false, v⟩
  | none => (parse6 (Text.chars s)).map fun v => ⟨true, v⟩

/-- The prefix length of a netmask. -/
def maskLength (v : Nat) : Option Nat :=
  (List.range 33).find? fun p => v = (2 ^ p - 1) * 2 ^ (32 - p)

/-- A prefix in decimal digits, at most the width of the address. -/
def parsePrefixLength (v6 : Bool) (cs : List Char) : Option Nat :=
  let n := Nat.ofDigitChars 10 cs 0
  if !cs.isEmpty && cs.all Text.isDecimal && n ≤ width v6 then some n else none

/-- A prefix of version 4: digits, a netmask, or a host mask. -/
def parseMask4 (cs : List Char) : Option Nat :=
  match parsePrefixLength false cs with
  | some p => some p
  | none =>
    match parse4 cs with
    | none => none
    | some v => (maskLength v).or (maskLength (2 ^ 32 - 1 - v))

/-- An address with its prefix length, `ipaddress.ip_interface`. -/
structure Interface where
  ip : Ip
  prefixLength : Nat
deriving DecidableEq, Repr

/-- `ipaddress.ip_interface`: without a prefix, the whole width. -/
def parseInterface (s : String) : Option Interface :=
  match (Text.chars s).splitOn '/' with
  | [a] =>
    match parse4 a with
    | some v => some ⟨⟨false, v⟩, 32⟩
    | none => (parse6 a).map fun v => ⟨⟨true, v⟩, 128⟩
  | [a, m] =>
    match parse4 a, parseMask4 m with
    | some v, some p => some ⟨⟨false, v⟩, p⟩
    | _, _ =>
      match parse6 a, parsePrefixLength true m with
      | some v, some p => some ⟨⟨true, v⟩, p⟩
      | _, _ => none
  | _ => none

/-- `address in interface.network`. -/
def Interface.contains (i : Interface) (a : Ip) : Bool :=
  let drop := 2 ^ (width i.ip.v6 - i.prefixLength)
  i.ip.v6 == a.v6 && i.ip.value / drop == a.value / drop

example : parse "192.168.100.11" = some ⟨false, 3232261131⟩ := by decide +kernel

example : parse "::ffff:192.168.100.11" = some ⟨true, 281473914004491⟩ := by decide +kernel

end Ip

end DgxSpark
