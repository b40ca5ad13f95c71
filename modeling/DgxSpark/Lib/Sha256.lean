import DgxSpark.Lib.Text

/-!
# SHA-256

The hash of a text, as a program asks for it: the lower-case hexadecimal digest of its
UTF-8 bytes. Words are natural numbers below `2 ^ 32`, sums are reduced, and the function
computes, on closed texts and inside the kernel.

Nothing is assumed about it. That distinct texts have distinct digests is not a theorem,
and where a development needs it, it has to say so. What is a theorem is the shape of a
digest (`DgxSpark.Sha256.hexDigest_shape`): sixty-four lower-case hexadecimal digits,
whatever the text.
-/

namespace DgxSpark

namespace Sha256

/-! ### Words -/

/-- Passing on the value of a number rather than the expression for it: the match makes
an evaluator compute the number first. -/
def force (n : Nat) (k : Nat → α) : α :=
  match n with
  | 0 => k 0
  | m + 1 => k (Nat.succ m)

@[simp] theorem force_eq (n : Nat) (k : Nat → α) : force n k = k n := by cases n <;> rfl

/-- Reduction of a sum to a word. -/
def word (n : Nat) : Nat := n % 0x100000000

/-- Rotation to the right. -/
def rotr (x n : Nat) : Nat := Nat.lor (Nat.shiftRight x n) (word (Nat.shiftLeft x (32 - n)))

/-- The bitwise exclusive or of three words. -/
def xor3 (a b c : Nat) : Nat := Nat.xor (Nat.xor a b) c

/-- The function `σ₀` of the message schedule. -/
def smallSigma0 (x : Nat) : Nat := xor3 (rotr x 7) (rotr x 18) (Nat.shiftRight x 3)

/-- The function `σ₁` of the message schedule. -/
def smallSigma1 (x : Nat) : Nat := xor3 (rotr x 17) (rotr x 19) (Nat.shiftRight x 10)

/-- The function `Σ₀` of the compression. -/
def bigSigma0 (x : Nat) : Nat := xor3 (rotr x 2) (rotr x 13) (rotr x 22)

/-- The function `Σ₁` of the compression. -/
def bigSigma1 (x : Nat) : Nat := xor3 (rotr x 6) (rotr x 11) (rotr x 25)

/-- The choice of two words by a third. -/
def choose (x y z : Nat) : Nat := Nat.xor (Nat.land x y) (Nat.land (Nat.xor x 0xffffffff) z)

/-- The majority of three words. -/
def majority (x y z : Nat) : Nat := xor3 (Nat.land x y) (Nat.land x z) (Nat.land y z)

/-! ### Blocks -/

/-- The round constants. -/
def roundConstants : List Nat := [
  0x428a2f98, 0x71374491, 0xb5c0fbcf, 0xe9b5dba5, 0x3956c25b, 0x59f111f1, 0x923f82a4, 0xab1c5ed5,
  0xd807aa98, 0x12835b01, 0x243185be, 0x550c7dc3, 0x72be5d74, 0x80deb1fe, 0x9bdc06a7, 0xc19bf174,
  0xe49b69c1, 0xefbe4786, 0x0fc19dc6, 0x240ca1cc, 0x2de92c6f, 0x4a7484aa, 0x5cb0a9dc, 0x76f988da,
  0x983e5152, 0xa831c66d, 0xb00327c8, 0xbf597fc7, 0xc6e00bf3, 0xd5a79147, 0x06ca6351, 0x14292967,
  0x27b70a85, 0x2e1b2138, 0x4d2c6dfc, 0x53380d13, 0x650a7354, 0x766a0abb, 0x81c2c92e, 0x92722c85,
  0xa2bfe8a1, 0xa81a664b, 0xc24b8b70, 0xc76c51a3, 0xd192e819, 0xd6990624, 0xf40e3585, 0x106aa070,
  0x19a4c116, 0x1e376c08, 0x2748774c, 0x34b0bcb5, 0x391c0cb3, 0x4ed8aa4a, 0x5b9cca4f, 0x682e6ff3,
  0x748f82ee, 0x78a5636f, 0x84c87814, 0x8cc70208, 0x90befffa, 0xa4506ceb, 0xbef9a3f7, 0xc67178f2]

/-- The eight working words. -/
structure State where
  a : Nat
  b : Nat
  c : Nat
  d : Nat
  e : Nat
  f : Nat
  g : Nat
  h : Nat
deriving DecidableEq

/-- The initial hash value. -/
def State.init : State :=
  ⟨0x6a09e667, 0xbb67ae85, 0x3c6ef372, 0xa54ff53a, 0x510e527f, 0x9b05688c, 0x1f83d9ab, 0x5be0cd19⟩

/-- Extension of the sixteen words of a block by as many words as asked for. -/
def schedule : Nat → List Nat → List Nat
  | 0, ws => ws
  | n + 1, w0 :: w1 :: w2 :: w3 :: w4 :: w5 :: w6 :: w7 :: w8 :: w9 :: w10 :: w11 :: w12 :: w13 ::
      w14 :: w15 :: _ =>
    force (word (smallSigma1 w14 + w9 + smallSigma0 w1 + w0)) fun w16 =>
      w0 :: schedule n [w1, w2, w3, w4, w5, w6, w7, w8, w9, w10, w11, w12, w13, w14, w15, w16]
  | _ + 1, ws => ws

/-- One round of the compression, with its constant and its word. -/
def round (s : State) (k w : Nat) : State :=
  force (s.h + bigSigma1 s.e + choose s.e s.f s.g + k + w) fun t1 =>
    force (word (t1 + (bigSigma0 s.a + majority s.a s.b s.c))) fun a =>
      force (word (s.d + t1)) fun e =>
        ⟨a, s.a, s.b, s.c, e, s.e, s.f, s.g⟩

/-- The rounds of a block. -/
def rounds : List Nat → List Nat → State → State
  | k :: ks, w :: ws, ⟨a, b, c, d, e, f, g, h⟩ => rounds ks ws (round ⟨a, b, c, d, e, f, g, h⟩ k w)
  | _, _, s => s

/-- The compression of one block of sixteen words. -/
def compress (s : State) (block : List Nat) : State :=
  let t := rounds roundConstants (schedule 48 block) s
  ⟨word (s.a + t.a), word (s.b + t.b), word (s.c + t.c), word (s.d + t.d), word (s.e + t.e),
    word (s.f + t.f), word (s.g + t.g), word (s.h + t.h)⟩

/-- The compression of the words of a message, sixteen at a time; the fuel bounds the
number of blocks. -/
def blocks : Nat → State → List Nat → State
  | 0, s, _ => s
  | n + 1, s, ws => if ws.isEmpty then s else blocks n (compress s (ws.take 16)) (ws.drop 16)

/-! ### Messages -/

/-- The UTF-8 bytes of a character. -/
def utf8 (c : Char) : List Nat :=
  let n := c.toNat
  if n < 0x80 then [n]
  else if n < 0x800 then [0xc0 + n / 64, 0x80 + n % 64]
  else if n < 0x10000 then [0xe0 + n / 4096, 0x80 + n / 64 % 64, 0x80 + n % 64]
  else [0xf0 + n / 262144, 0x80 + n / 4096 % 64, 0x80 + n / 64 % 64, 0x80 + n % 64]

/-- The padding after a message of a length in bytes. -/
def padding (len : Nat) : List Nat :=
  let bits := 8 * len
  0x80 :: List.replicate ((119 - len % 64) % 64) 0 ++
    [bits / 2 ^ 56 % 256, bits / 2 ^ 48 % 256, bits / 2 ^ 40 % 256, bits / 2 ^ 32 % 256,
      bits / 2 ^ 24 % 256, bits / 2 ^ 16 % 256, bits / 2 ^ 8 % 256, bits % 256]

/-- Bytes read as big-endian words. -/
def toWords : List Nat → List Nat
  | a :: b :: c :: d :: rest => (((a * 256 + b) * 256 + c) * 256 + d) :: toWords rest
  | _ => []

/-- The number of bytes, counted up from a number. -/
def count : List Nat → Nat → Nat
  | [], n => n
  | _ :: bytes, n => force (n + 1) fun m => count bytes m

/-- The hash of a message. The padding takes the message to at most two blocks more than
those it fills. -/
def hash (bytes : List Nat) : State :=
  force (count bytes 0) fun len =>
    blocks (len / 64 + 2) State.init (toWords (bytes ++ padding len))

/-- The eight hexadecimal digits of a word. -/
def hexWord (w : Nat) : List Char :=
  [Nat.digitChar (w / 2 ^ 28 % 16), Nat.digitChar (w / 2 ^ 24 % 16), Nat.digitChar (w / 2 ^ 20 % 16),
    Nat.digitChar (w / 2 ^ 16 % 16), Nat.digitChar (w / 2 ^ 12 % 16), Nat.digitChar (w / 2 ^ 8 % 16),
    Nat.digitChar (w / 2 ^ 4 % 16), Nat.digitChar (w % 16)]

/-- The digits of a hash value. -/
def State.hex (s : State) : List Char :=
  hexWord s.a ++ hexWord s.b ++ hexWord s.c ++ hexWord s.d ++ hexWord s.e ++ hexWord s.f ++
    hexWord s.g ++ hexWord s.h

/-- **The hexadecimal digest of a text**, `hashlib.sha256(text.encode()).hexdigest()`. It is
irreducible: a proof about digests is not meant to compute one by accident. -/
@[irreducible] def hexDigest (s : String) : String :=
  String.ofList (hash ((Text.chars s).flatMap utf8)).hex

/-- The digest of a text given by its characters. -/
theorem hexDigest_ofList (cs : List Char) :
    hexDigest (String.ofList cs) = String.ofList (hash (cs.flatMap utf8)).hex := by
  rw [hexDigest, Text.chars_eq, String.toList_ofList]

/-! ### The shape of a digest -/

theorem isHexLower_digitChar : ∀ d, d < 16 → Text.isHexLower (Nat.digitChar d) = true := by decide

theorem hexWord_shape (w : Nat) :
    (hexWord w).length = 8 ∧ ∀ c ∈ hexWord w, Text.isHexLower c = true := by
  refine ⟨rfl, ?_⟩
  simp only [hexWord, List.mem_cons, List.not_mem_nil, or_false]
  rintro c (rfl | rfl | rfl | rfl | rfl | rfl | rfl | rfl) <;>
    exact isHexLower_digitChar _ (Nat.mod_lt _ (by decide))

/-- **A digest is sixty-four lower-case hexadecimal digits.** -/
theorem hexDigest_shape (s : String) : Text.fullMatch Text.isHexLower 64 (hexDigest s) = true := by
  have hall : ∀ t : State, ∀ c ∈ t.hex, Text.isHexLower c = true := by
    intro t c hc
    simp only [State.hex, List.mem_append] at hc
    rcases hc with ((((((hc | hc) | hc) | hc) | hc) | hc) | hc) | hc <;>
      exact (hexWord_shape _).2 c hc
  simp only [Text.fullMatch, hexDigest, Text.chars_eq, String.toList_ofList, Bool.and_eq_true, beq_iff_eq,
    List.all_eq_true]
  exact ⟨rfl, hall _⟩

example : hexDigest "abc" = "ba7816bf8f01cfea414140de5dae2223b00361a396177a9cb410ff61f20015ad" := by
  decide +kernel

end Sha256

end DgxSpark
