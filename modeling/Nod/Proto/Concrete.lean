import Nod.Lib.Sha256
import Nod.Proto.Signing

/-
  The packages made concrete, to run the model on an input: SHA-256, unpadded base64url, P-256
  points and DER signatures in full. ECDSA verification is a list of signatures that are known to
  verify: on anything else it says no. `hashPackages` has in its place a scheme without a secret, in
  which every payload can be signed.
-/

namespace Nod.Proto.Concrete

open Lib

/-! ## Base64url without padding -/

def base64Val (c : Char) : Option Nat :=
  if 'A' ≤ c ∧ c ≤ 'Z' then some (c.toNat - 65)
  else if 'a' ≤ c ∧ c ≤ 'z' then some (c.toNat - 71)
  else if c.isDigit then some (c.toNat + 4)
  else if c = '-' then some 62
  else if c = '_' then some 63
  else none

/-- Four digits are three bytes; two or three digits at the end leave no stray bits. -/
def decodeDigits : List Nat → Option (List UInt8)
  | [] => some []
  | a :: b :: c :: d :: ds => do
    let rest ← decodeDigits ds
    some (.ofNat (a * 4 + b / 16) :: .ofNat (b % 16 * 16 + c / 4) :: .ofNat (c % 4 * 64 + d) :: rest)
  | [a, b, c] =>
    if c % 4 = 0 then some [.ofNat (a * 4 + b / 16), .ofNat (b % 16 * 16 + c / 4)] else none
  | [a, b] => if b % 16 = 0 then some [.ofNat (a * 4 + b / 16)] else none
  | [_] => none

def urlSafeDecode (s : String) : Option (List UInt8) := do
  let digits ← s.toList.mapM base64Val
  decodeDigits digits

def base64Char (n : Nat) : Char :=
  if n < 26 then .ofNat (n + 65)
  else if n < 52 then .ofNat (n + 71)
  else if n < 62 then .ofNat (n - 4)
  else if n = 62 then '-'
  else '_'

def encodeBytes : List UInt8 → List Nat
  | [] => []
  | [x] => [x.toNat / 4, x.toNat % 4 * 16]
  | [x, y] => [x.toNat / 4, x.toNat % 4 * 16 + y.toNat / 16, y.toNat % 16 * 4]
  | x :: y :: z :: bs =>
    x.toNat / 4 :: (x.toNat % 4 * 16 + y.toNat / 16) :: (y.toNat % 16 * 4 + z.toNat / 64) ::
      z.toNat % 64 :: encodeBytes bs

def urlSafeEncode (bytes : List UInt8) : String :=
  String.ofList ((encodeBytes bytes).map base64Char)

theorem base64Val_base64Char : ∀ n < 64, base64Val (base64Char n) = some n := by decide

theorem isAscii_base64Char : ∀ n < 64, Text.isAscii (base64Char n) = true := by decide

theorem encodeBytes_lt (bytes : List UInt8) : ∀ n ∈ encodeBytes bytes, n < 64 := by
  fun_induction encodeBytes bytes with
  | case1 => exact fun n hn => absurd hn List.not_mem_nil
  | case2 x =>
    have hx := x.toNat_lt
    simp only [List.mem_cons, List.not_mem_nil, or_false]
    omega
  | case3 x y =>
    have hx := x.toNat_lt
    have hy := y.toNat_lt
    simp only [List.mem_cons, List.not_mem_nil, or_false]
    omega
  | case4 x y z bs ih =>
    have hx := x.toNat_lt
    have hy := y.toNat_lt
    have hz := z.toNat_lt
    intro n hn
    simp only [List.mem_cons] at hn
    rcases hn with rfl | rfl | rfl | rfl | hn
    · omega
    · omega
    · omega
    · omega
    · exact ih n hn

theorem decodeDigits_encodeBytes (bytes : List UInt8) :
    decodeDigits (encodeBytes bytes) = some bytes := by
  have hbyte : ∀ (x : UInt8) n, n % 256 = x.toNat → UInt8.ofNat n = x := fun x n h => by
    rw [← UInt8.toNat_inj, UInt8.toNat_ofNat']
    exact h
  fun_induction encodeBytes bytes with
  | case1 => rfl
  | case2 x =>
    have hx := x.toNat_lt
    unfold decodeDigits
    rw [if_pos (by omega), hbyte x _ (by omega)]
  | case3 x y =>
    have hx := x.toNat_lt
    have hy := y.toNat_lt
    unfold decodeDigits
    rw [if_pos (by omega), hbyte x _ (by omega), hbyte y _ (by omega)]
  | case4 x y z bs ih =>
    have hx := x.toNat_lt
    have hy := y.toNat_lt
    have hz := z.toNat_lt
    unfold decodeDigits
    rw [ih, hbyte x _ (by omega), hbyte y _ (by omega), hbyte z _ (by omega)]
    rfl

theorem urlSafeDecode_urlSafeEncode (bytes : List UInt8) :
    urlSafeDecode (urlSafeEncode bytes) = some bytes := by
  have hdigits : ∀ ns : List Nat, (∀ n ∈ ns, n < 64) → (ns.map base64Char).mapM base64Val = some ns := by
    intro ns hns
    induction ns with
    | nil => rfl
    | cons n ns ih =>
      rw [List.map_cons, List.mapM_cons, base64Val_base64Char n (hns n List.mem_cons_self),
        ih fun m hm => hns m (List.mem_cons_of_mem _ hm)]
      rfl
  unfold urlSafeDecode urlSafeEncode
  rw [String.toList_ofList, hdigits _ (encodeBytes_lt bytes)]
  exact decodeDigits_encodeBytes bytes

/-- Three bytes are four digits. -/
theorem utf8ByteSize_urlSafeEncode (bytes : List UInt8) :
    (urlSafeEncode bytes).utf8ByteSize = (bytes.length * 4 + 2) / 3 := by
  have hlength : (encodeBytes bytes).length = (bytes.length * 4 + 2) / 3 := by
    fun_induction encodeBytes bytes with
    | case1 => rfl
    | case2 x => simp
    | case3 x y => simp
    | case4 x y z bs ih =>
      simp only [List.length_cons, ih]
      omega
  unfold urlSafeEncode
  rw [Text.utf8ByteSize_of_ascii, String.toList_ofList, List.length_map, hlength]
  intro c hc
  rw [String.toList_ofList] at hc
  obtain ⟨n, hn, rfl⟩ := List.mem_map.mp hc
  exact isAscii_base64Char n (encodeBytes_lt bytes n hn)

/-! ## P-256 encodings -/

def fieldPrime : Nat := 0xffffffff00000001000000000000000000000000ffffffffffffffffffffffff
def curveB : Nat := 0x5ac635d8aa3a93e7b3ebbd55769886bc651d06b0cc53b0f63bce3c3e27d2604b
def groupOrder : Nat := 0xffffffff00000000ffffffffffffffffbce6faada7179e84f3b9cac2fc632551

def bigEndian (bs : List UInt8) : Nat := bs.foldl (fun acc b => acc * 256 + b.toNat) 0

/-- An uncompressed point on the curve. -/
def sec1Point (key : List UInt8) : Bool :=
  let x := bigEndian (key.tail.take 32)
  let y := bigEndian (key.tail.drop 32)
  key.length == 65 && key.head? == some 4 && x < fieldPrime && y < fieldPrime &&
    y * y % fieldPrime == (x * x * x + (fieldPrime - 3) * x + curveB) % fieldPrime

/-- A DER integer between 1 and the group order, without spare zeros, and what follows it. -/
def derInteger : List UInt8 → Option (List UInt8)
  | 2 :: len :: bs =>
    let body := bs.take len.toNat
    let n := bigEndian body
    if body.length = len.toNat ∧ 0 < n ∧ n < groupOrder ∧ minimal body = true then
      some (bs.drop len.toNat)
    else none
  | _ => none
where
  minimal : List UInt8 → Bool
    | 0 :: b :: _ => 128 ≤ b
    | b :: _ => b < 128
    | [] => false

def derSignature : List UInt8 → Bool
  | 0x30 :: len :: bs =>
    bs.length == len.toNat && (derInteger bs).bind derInteger == some []
  | _ => false

/-! ## Known signatures -/

/-- A key, a payload and a signature the key made of it. -/
structure Signed where
  publicKey : String
  payload : String
  signature : String

def ecdsaVerify (signed : List Signed) (key : List UInt8) (payload : String)
    (signature : List UInt8) : Bool :=
  signed.any fun s =>
    urlSafeDecode s.publicKey == some key && s.payload == payload &&
      urlSafeDecode s.signature == some signature

/-- The packages on concrete inputs; `signed` lists the signatures that verify. -/
def packages (signed : List Signed) : Externals where
  sha256Hex := Sha256.hex
  sha256Hex_length s := by
    rw [Text.utf8ByteSize_of_ascii fun c hc =>
      Text.isAscii_of_isLowerHex (Sha256.isLowerHex_hex s c hc), Sha256.length_hex]
  sha256Hex_lowerHex := Sha256.isLowerHex_hex
  urlSafeDecode := urlSafeDecode
  sec1Point := sec1Point
  derSignature := derSignature
  ecdsaVerify := ecdsaVerify signed

/-- A P-256 key. -/
def publicKey : String :=
  "BEoZ_ZCR3_T7K2XpZtpUiCvsbE_wcukMEBq1947iJGuhJHk9PFxRjH0xcQL0gyX6h9lX7Ad8M0_GIk-m94E0HSE"

def publicKeyBytes : List UInt8 :=
  [4, 74, 25, 253, 144, 145, 223, 244, 251, 43, 101, 233, 102, 218, 84, 136, 43, 236, 108, 79,
    240, 114, 233, 12, 16, 26, 181, 247, 142, 226, 36, 107, 161, 36, 121, 61, 60, 92, 81, 140,
    125, 49, 113, 2, 244, 131, 37, 250, 135, 217, 87, 236, 7, 124, 51, 79, 198, 34, 79, 166,
    247, 129, 52, 29, 33]

theorem urlSafeDecode_publicKey : urlSafeDecode publicKey = some publicKeyBytes := by
  decide +kernel

theorem sec1Point_publicKeyBytes : sec1Point publicKeyBytes = true := by decide +kernel

/-- A listed signature of the key verifies once its own encoding is well formed. -/
theorem verifyPayload_packages {signed : List Signed} {payload signature : String}
    (hs : ⟨publicKey, payload, signature⟩ ∈ signed)
    (hder : (urlSafeDecode signature).any derSignature = true) :
    verifyPayload (packages signed) publicKey payload signature = .ok () := by
  obtain ⟨bytes, hdec, hbytes⟩ := (Option.any_eq_true _ _).mp hder
  have hv : ecdsaVerify signed publicKeyBytes payload bytes = true :=
    List.any_eq_true.mpr ⟨_, hs, by simp [urlSafeDecode_publicKey, hdec]⟩
  have hlen : publicKeyBytes.length = uncompressedP256PublicKeyLength := rfl
  have hhead : publicKeyBytes.head? = some uncompressedP256PublicKeyPrefix := rfl
  simp [verifyPayload, decodePublicKey, packages, urlSafeDecode_publicKey, hhead, hlen,
    sec1Point_publicKeyBytes, hdec, hbytes, hv]

/-! ## A signature of every payload -/

/-- Half the digits of a payload's hash. -/
def hashBytes (payload : String) : List UInt8 :=
  ((Sha256.hex payload).toList.take 32).map fun c => .ofNat c.toNat

/-- In DER, the half hash and the number one. -/
def hashSignature (payload : String) : List UInt8 :=
  0x30 :: 37 :: 2 :: 32 :: (hashBytes payload ++ [2, 1, 1])

theorem length_hashBytes (payload : String) : (hashBytes payload).length = 32 := by
  rw [hashBytes, List.length_map, List.length_take, Sha256.length_hex]
  rfl

theorem digit_of_mem_hashBytes {payload : String} {b : UInt8} (h : b ∈ hashBytes payload) :
    0 < b.toNat ∧ b.toNat < 128 := by
  obtain ⟨c, hc, rfl⟩ := List.mem_map.mp h
  have hhex := Sha256.isLowerHex_hex payload c (List.mem_of_mem_take hc)
  have hrange : 48 ≤ c.toNat ∧ c.toNat ≤ 102 := by
    unfold Text.isLowerHex Char.isDigit at hhex
    rw [Bool.or_eq_true, Bool.and_eq_true, Bool.and_eq_true, decide_eq_true_eq, decide_eq_true_eq,
      decide_eq_true_eq, decide_eq_true_eq] at hhex
    obtain ⟨hlow, hhigh⟩ | ⟨hlow, hhigh⟩ := hhex
    · exact ⟨hlow, le_trans hhigh (by decide)⟩
    · exact ⟨le_trans (by decide) hlow, hhigh⟩
  rw [UInt8.toNat_ofNat']
  omega

/-- A big-endian number is between those of its first digit. -/
theorem bigEndian_bounds (acc : Nat) (bs : List UInt8) :
    acc * 256 ^ bs.length ≤ bs.foldl (fun acc b => acc * 256 + b.toNat) acc ∧
      bs.foldl (fun acc b => acc * 256 + b.toNat) acc < (acc + 1) * 256 ^ bs.length := by
  induction bs generalizing acc with
  | nil =>
    simp only [List.foldl_nil, List.length_nil, Nat.pow_zero, Nat.mul_one]
    omega
  | cons b bs ih =>
    have hb := b.toNat_lt
    obtain ⟨hlow, hhigh⟩ := ih (acc * 256 + b.toNat)
    rw [List.foldl_cons, List.length_cons, Nat.pow_succ']
    refine ⟨le_trans ?_ hlow, lt_of_lt_of_le hhigh ?_⟩
    · rw [← Nat.mul_assoc]
      exact Nat.mul_le_mul_right _ (Nat.le_add_right _ _)
    · rw [← Nat.mul_assoc]
      exact Nat.mul_le_mul_right _ (by omega)

theorem derSignature_hashSignature (payload : String) :
    derSignature (hashSignature payload) = true := by
  obtain ⟨b, bs, hbytes⟩ := List.exists_cons_of_length_eq_add_one (length_hashBytes payload)
  have hlength := length_hashBytes payload
  have hdigit := digit_of_mem_hashBytes (hbytes ▸ List.mem_cons_self : b ∈ hashBytes payload)
  have hbounds : 0 < bigEndian (b :: bs) ∧ bigEndian (b :: bs) < groupOrder := by
    have hrest : bs.length = 31 := by
      rw [hbytes, List.length_cons] at hlength
      omega
    have hnumber : bigEndian (b :: bs) = bs.foldl (fun acc b => acc * 256 + b.toNat) b.toNat := by
      rw [bigEndian, List.foldl_cons, Nat.zero_mul, Nat.zero_add]
    obtain ⟨hlow, hhigh⟩ := bigEndian_bounds b.toNat bs
    rw [← hnumber, hrest] at hlow hhigh
    have horder : 128 * 256 ^ 31 ≤ groupOrder := by decide
    have hone : 0 < 256 ^ 31 := by decide
    refine ⟨lt_of_lt_of_le (Nat.mul_pos hdigit.1 hone) hlow, lt_of_lt_of_le hhigh ?_⟩
    exact le_trans (Nat.mul_le_mul_right _ hdigit.2) horder
  have hminimal : derInteger.minimal (b :: bs) = true := by
    unfold derInteger.minimal
    split
    · rename_i heq
      obtain ⟨rfl, -⟩ := List.cons.inj heq
      exact absurd hdigit.1 (lt_irrefl 0)
    · rename_i heq
      obtain ⟨rfl, -⟩ := List.cons.inj heq
      exact decide_eq_true (UInt8.lt_iff_toNat_lt.mpr hdigit.2)
    · rename_i heq
      cases heq
  have hfirst : derInteger (2 :: 32 :: (hashBytes payload ++ [2, 1, 1])) = some [2, 1, 1] := by
    have htake : (hashBytes payload ++ [2, 1, 1]).take (32 : UInt8).toNat = hashBytes payload :=
      List.take_left' hlength
    have hdrop : (hashBytes payload ++ [2, 1, 1]).drop (32 : UInt8).toNat = [2, 1, 1] :=
      List.drop_left' hlength
    rw [derInteger, htake, hdrop, hbytes]
    exact if_pos ⟨hbytes ▸ hlength, hbounds.1, hbounds.2, hminimal⟩
  have hsecond : derInteger [2, 1, 1] = some [] := by decide
  rw [hashSignature, derSignature, hfirst, Option.bind_some, hsecond]
  rw [List.length_cons, List.length_cons, List.length_append, hlength]
  rfl

/-- The packages with a scheme that signs everything: a signature is the payload's half hash. -/
def hashPackages : Externals :=
  { packages [] with ecdsaVerify := fun _ payload bytes => bytes == hashSignature payload }

theorem verifyPayload_hashPackages (payload : String) :
    verifyPayload hashPackages publicKey payload (urlSafeEncode (hashSignature payload)) = .ok () := by
  have hlen : publicKeyBytes.length = uncompressedP256PublicKeyLength := rfl
  have hhead : publicKeyBytes.head? = some uncompressedP256PublicKeyPrefix := rfl
  simp [verifyPayload, decodePublicKey, hashPackages, packages, urlSafeDecode_publicKey, hhead, hlen,
    sec1Point_publicKeyBytes, urlSafeDecode_urlSafeEncode, derSignature_hashSignature]

end Nod.Proto.Concrete
