import Mathlib.Data.List.GetD

/-!
# SHA-256

The digest of a message of bytes, and an object that is fed the message piece by
piece.  Only the form of a digest is shown here, and that the pieces do not matter.
-/

set_option autoImplicit false

namespace Sha256

abbrev Word := BitVec 32

/-- The eight words of the state, and the working variables of a block. -/
structure State where
  a : Word
  b : Word
  c : Word
  d : Word
  e : Word
  f : Word
  g : Word
  h : Word
  deriving DecidableEq, Repr

def State.words (s : State) : List Word := [s.a, s.b, s.c, s.d, s.e, s.f, s.g, s.h]

def initial : State where
  a := 0x6a09e667#32
  b := 0xbb67ae85#32
  c := 0x3c6ef372#32
  d := 0xa54ff53a#32
  e := 0x510e527f#32
  f := 0x9b05688c#32
  g := 0x1f83d9ab#32
  h := 0x5be0cd19#32

def roundConstants : List Word :=
  [0x428a2f98#32, 0x71374491#32, 0xb5c0fbcf#32, 0xe9b5dba5#32, 0x3956c25b#32, 0x59f111f1#32,
    0x923f82a4#32, 0xab1c5ed5#32, 0xd807aa98#32, 0x12835b01#32, 0x243185be#32, 0x550c7dc3#32,
    0x72be5d74#32, 0x80deb1fe#32, 0x9bdc06a7#32, 0xc19bf174#32, 0xe49b69c1#32, 0xefbe4786#32,
    0x0fc19dc6#32, 0x240ca1cc#32, 0x2de92c6f#32, 0x4a7484aa#32, 0x5cb0a9dc#32, 0x76f988da#32,
    0x983e5152#32, 0xa831c66d#32, 0xb00327c8#32, 0xbf597fc7#32, 0xc6e00bf3#32, 0xd5a79147#32,
    0x06ca6351#32, 0x14292967#32, 0x27b70a85#32, 0x2e1b2138#32, 0x4d2c6dfc#32, 0x53380d13#32,
    0x650a7354#32, 0x766a0abb#32, 0x81c2c92e#32, 0x92722c85#32, 0xa2bfe8a1#32, 0xa81a664b#32,
    0xc24b8b70#32, 0xc76c51a3#32, 0xd192e819#32, 0xd6990624#32, 0xf40e3585#32, 0x106aa070#32,
    0x19a4c116#32, 0x1e376c08#32, 0x2748774c#32, 0x34b0bcb5#32, 0x391c0cb3#32, 0x4ed8aa4a#32,
    0x5b9cca4f#32, 0x682e6ff3#32, 0x748f82ee#32, 0x78a5636f#32, 0x84c87814#32, 0x8cc70208#32,
    0x90befffa#32, 0xa4506ceb#32, 0xbef9a3f7#32, 0xc67178f2#32]

/-! ## One block -/

def choose (x y z : Word) : Word := (x &&& y) ^^^ (~~~x &&& z)

def majority (x y z : Word) : Word := (x &&& y) ^^^ (x &&& z) ^^^ (y &&& z)

def bigSigma0 (x : Word) : Word := x.rotateRight 2 ^^^ x.rotateRight 13 ^^^ x.rotateRight 22

def bigSigma1 (x : Word) : Word := x.rotateRight 6 ^^^ x.rotateRight 11 ^^^ x.rotateRight 25

def smallSigma0 (x : Word) : Word := x.rotateRight 7 ^^^ x.rotateRight 18 ^^^ (x >>> 3)

def smallSigma1 (x : Word) : Word := x.rotateRight 17 ^^^ x.rotateRight 19 ^^^ (x >>> 10)

/-- So many more words of the schedule, the newest in front. -/
def extendSchedule : Nat → List Word → List Word
  | 0, words => words
  | n + 1, words =>
      extendSchedule n
        ((smallSigma1 (words.getD 1 0) + words.getD 6 0 + smallSigma0 (words.getD 14 0) +
          words.getD 15 0) :: words)

def schedule (block : List Word) : List Word := (extendSchedule 48 block.reverse).reverse

def round (s : State) (constant word : Word) : State :=
  let t1 := s.h + bigSigma1 s.e + choose s.e s.f s.g + constant + word
  let t2 := bigSigma0 s.a + majority s.a s.b s.c
  ⟨t1 + t2, s.a, s.b, s.c, s.d + t1, s.e, s.f, s.g⟩

def compress (s : State) (block : List Word) : State :=
  let after := (roundConstants.zip (schedule block)).foldl (fun s pair => round s pair.1 pair.2) s
  ⟨s.a + after.a, s.b + after.b, s.c + after.c, s.d + after.d, s.e + after.e, s.f + after.f,
    s.g + after.g, s.h + after.h⟩

/-! ## A message -/

/-- The eight bytes of the length in bits, the highest first. -/
def lengthBytes (bits : Nat) : List UInt8 :=
  (List.range 8).map fun i => UInt8.ofNat (bits >>> (56 - 8 * i))

def padding (length : Nat) : List UInt8 :=
  0x80 :: List.replicate ((119 - length % 64) % 64) 0 ++ lengthBytes (8 * length)

def words : List UInt8 → List Word
  | a :: b :: c :: d :: rest =>
      (a.toBitVec ++ b.toBitVec ++ c.toBitVec ++ d.toBitVec : BitVec 32) :: words rest
  | _ => []

def compressAll : Nat → State → List Word → State
  | 0, s, _ => s
  | n + 1, s, words => compressAll n (compress s (words.take 16)) (words.drop 16)

def digest (message : List UInt8) : State :=
  let all := words (message ++ padding message.length)
  compressAll (all.length / 16) initial all

/-! ## Hexadecimal digits -/

def hexDigits : List Char := "0123456789abcdef".toList

def hexDigit (n : Nat) : Char := hexDigits.getD (n % 16) '0'

def wordHex (word : Word) : List Char :=
  (List.range 8).map fun i => hexDigit (word.toNat >>> (28 - 4 * i))

@[irreducible] def hexdigest (message : List UInt8) : String :=
  String.ofList ((digest message).words.flatMap wordHex)

example : hexdigest [97, 98, 99] =
    "ba7816bf8f01cfea414140de5dae2223b00361a396177a9cb410ff61f20015ad" := by
  decide +kernel

theorem hexDigit_mem (n : Nat) : hexDigit n ∈ hexDigits := by
  have bound : n % 16 < hexDigits.length := Nat.mod_lt n (by decide)
  unfold hexDigit
  rw [List.getD_eq_getElem _ _ bound]
  exact List.getElem_mem bound

/-- A digest has 64 lower-case hexadecimal digits. -/
theorem hexdigest_digits (message : List UInt8) :
    (hexdigest message).toList.length = 64 ∧ ∀ c ∈ (hexdigest message).toList, c ∈ hexDigits := by
  unfold hexdigest
  rw [String.toList_ofList]
  refine ⟨?_, ?_⟩
  · simp [State.words, wordHex]
  · intro c member
    obtain ⟨word, _, inWord⟩ := List.mem_flatMap.mp member
    obtain ⟨i, _, rfl⟩ := List.mem_map.mp inWord
    exact hexDigit_mem _

/-! ## Piece by piece -/

/-- An object that is fed a message. -/
structure Hasher where
  message : List UInt8

def Hasher.new : Hasher := ⟨[]⟩

def Hasher.update (hasher : Hasher) (bytes : List UInt8) : Hasher := ⟨hasher.message ++ bytes⟩

def Hasher.hexdigest (hasher : Hasher) : String := Sha256.hexdigest hasher.message

end Sha256
