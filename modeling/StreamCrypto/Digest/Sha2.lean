import StreamCrypto.Bytes.Words
import StreamCrypto.Digest.Word
import StreamCrypto.Digest.Compression

/-!
# SHA-256, SHA-384 and SHA-512

The digests share one algorithm. It is written for any word width, with four functions of
one word and a list of round constants as parameters, and used with 32-bit and 64-bit
words. SHA-384 is SHA-512 from another start with a shorter output.
-/

namespace StreamCrypto.Digest.Sha2

open Word

structure State (ω : Type) where
  a : ω
  b : ω
  c : ω
  d : ω
  e : ω
  f : ω
  g : ω
  h : ω

/-- What a word width brings: the functions of one word and the round constants. -/
structure Parameters (ω : Type) where
  bigSigma0 : ω → ω
  bigSigma1 : ω → ω
  smallSigma0 : ω → ω
  smallSigma1 : ω → ω
  constants : List ω

section Algorithm

variable {ω : Type} [Add ω] [AndOp ω] [OrOp ω] [XorOp ω] [Complement ω] [Inhabited ω]

/-- One word for each round; each further word is made from the words 2, 7, 15 and 16
places before it. -/
@[specialize] def schedule (p : Parameters ω) (block : List ω) : Array ω :=
  (List.range (p.constants.length - 16)).foldl (fun words i ↦
    words.push (p.smallSigma1 (words.getD (i + 14) default) + words.getD (i + 9) default +
      p.smallSigma0 (words.getD (i + 1) default) + words.getD i default))
    block.toArray

@[specialize] def step (p : Parameters ω) (s : State ω) (row : ω × ω) : State ω :=
  let first := s.h + p.bigSigma1 s.e + choose s.e s.f s.g + row.1 + row.2
  let second := p.bigSigma0 s.a + majority s.a s.b s.c
  ⟨first + second, s.a, s.b, s.c, s.d + first, s.e, s.f, s.g⟩

@[specialize] def absorb (p : Parameters ω) (s : State ω) (block : List ω) : State ω :=
  let t := (p.constants.zip (schedule p block).toList).foldl (step p) s
  ⟨s.a + t.a, s.b + t.b, s.c + t.c, s.d + t.d, s.e + t.e, s.f + t.f, s.g + t.g, s.h + t.h⟩

def State.toList (s : State ω) : List ω := [s.a, s.b, s.c, s.d, s.e, s.f, s.g, s.h]

end Algorithm

/-! ## Words of 32 bits -/

/-- The first 32 bits of the fractional parts of the cube roots of the first 64 primes. -/
def constants32 : List UInt32 :=
  [0x428a2f98, 0x71374491, 0xb5c0fbcf, 0xe9b5dba5, 0x3956c25b, 0x59f111f1, 0x923f82a4, 0xab1c5ed5,
   0xd807aa98, 0x12835b01, 0x243185be, 0x550c7dc3, 0x72be5d74, 0x80deb1fe, 0x9bdc06a7, 0xc19bf174,
   0xe49b69c1, 0xefbe4786, 0x0fc19dc6, 0x240ca1cc, 0x2de92c6f, 0x4a7484aa, 0x5cb0a9dc, 0x76f988da,
   0x983e5152, 0xa831c66d, 0xb00327c8, 0xbf597fc7, 0xc6e00bf3, 0xd5a79147, 0x06ca6351, 0x14292967,
   0x27b70a85, 0x2e1b2138, 0x4d2c6dfc, 0x53380d13, 0x650a7354, 0x766a0abb, 0x81c2c92e, 0x92722c85,
   0xa2bfe8a1, 0xa81a664b, 0xc24b8b70, 0xc76c51a3, 0xd192e819, 0xd6990624, 0xf40e3585, 0x106aa070,
   0x19a4c116, 0x1e376c08, 0x2748774c, 0x34b0bcb5, 0x391c0cb3, 0x4ed8aa4a, 0x5b9cca4f, 0x682e6ff3,
   0x748f82ee, 0x78a5636f, 0x84c87814, 0x8cc70208, 0x90befffa, 0xa4506ceb, 0xbef9a3f7, 0xc67178f2]

def parameters32 : Parameters UInt32 where
  bigSigma0 x := rotateRight32 2 x ^^^ rotateRight32 13 x ^^^ rotateRight32 22 x
  bigSigma1 x := rotateRight32 6 x ^^^ rotateRight32 11 x ^^^ rotateRight32 25 x
  smallSigma0 x := rotateRight32 7 x ^^^ rotateRight32 18 x ^^^ x >>> 3
  smallSigma1 x := rotateRight32 17 x ^^^ rotateRight32 19 x ^^^ x >>> 10
  constants := constants32

def absorb32 (s : State UInt32) (block : Bytes) : State UInt32 :=
  absorb parameters32 s (Bytes.words32BigEndian block)

def sha256 : Compression where
  State := State UInt32
  blockSize := 64
  blockSize_pos := sixtyFour_pos
  initial :=
    ⟨0x6a09e667, 0xbb67ae85, 0x3c6ef372, 0xa54ff53a,
    0x510e527f, 0x9b05688c, 0x1f83d9ab, 0x5be0cd19⟩
  absorb := absorb32
  lengthWidth := 8
  lengthField := Bytes.ofNatBigEndian 8
  output s := s.toList.flatMap Bytes.ofWord32BigEndian

/-! ## Words of 64 bits -/

/-- The first 64 bits of the fractional parts of the cube roots of the first 80 primes. -/
def constants64 : List UInt64 :=
  [0x428a2f98d728ae22, 0x7137449123ef65cd, 0xb5c0fbcfec4d3b2f, 0xe9b5dba58189dbbc,
   0x3956c25bf348b538, 0x59f111f1b605d019, 0x923f82a4af194f9b, 0xab1c5ed5da6d8118,
   0xd807aa98a3030242, 0x12835b0145706fbe, 0x243185be4ee4b28c, 0x550c7dc3d5ffb4e2,
   0x72be5d74f27b896f, 0x80deb1fe3b1696b1, 0x9bdc06a725c71235, 0xc19bf174cf692694,
   0xe49b69c19ef14ad2, 0xefbe4786384f25e3, 0x0fc19dc68b8cd5b5, 0x240ca1cc77ac9c65,
   0x2de92c6f592b0275, 0x4a7484aa6ea6e483, 0x5cb0a9dcbd41fbd4, 0x76f988da831153b5,
   0x983e5152ee66dfab, 0xa831c66d2db43210, 0xb00327c898fb213f, 0xbf597fc7beef0ee4,
   0xc6e00bf33da88fc2, 0xd5a79147930aa725, 0x06ca6351e003826f, 0x142929670a0e6e70,
   0x27b70a8546d22ffc, 0x2e1b21385c26c926, 0x4d2c6dfc5ac42aed, 0x53380d139d95b3df,
   0x650a73548baf63de, 0x766a0abb3c77b2a8, 0x81c2c92e47edaee6, 0x92722c851482353b,
   0xa2bfe8a14cf10364, 0xa81a664bbc423001, 0xc24b8b70d0f89791, 0xc76c51a30654be30,
   0xd192e819d6ef5218, 0xd69906245565a910, 0xf40e35855771202a, 0x106aa07032bbd1b8,
   0x19a4c116b8d2d0c8, 0x1e376c085141ab53, 0x2748774cdf8eeb99, 0x34b0bcb5e19b48a8,
   0x391c0cb3c5c95a63, 0x4ed8aa4ae3418acb, 0x5b9cca4f7763e373, 0x682e6ff3d6b2b8a3,
   0x748f82ee5defb2fc, 0x78a5636f43172f60, 0x84c87814a1f0ab72, 0x8cc702081a6439ec,
   0x90befffa23631e28, 0xa4506cebde82bde9, 0xbef9a3f7b2c67915, 0xc67178f2e372532b,
   0xca273eceea26619c, 0xd186b8c721c0c207, 0xeada7dd6cde0eb1e, 0xf57d4f7fee6ed178,
   0x06f067aa72176fba, 0x0a637dc5a2c898a6, 0x113f9804bef90dae, 0x1b710b35131c471b,
   0x28db77f523047d84, 0x32caab7b40c72493, 0x3c9ebe0a15c9bebc, 0x431d67c49c100d4c,
   0x4cc5d4becb3e42b6, 0x597f299cfc657e2a, 0x5fcb6fab3ad6faec, 0x6c44198c4a475817]

def parameters64 : Parameters UInt64 where
  bigSigma0 x := rotateRight64 28 x ^^^ rotateRight64 34 x ^^^ rotateRight64 39 x
  bigSigma1 x := rotateRight64 14 x ^^^ rotateRight64 18 x ^^^ rotateRight64 41 x
  smallSigma0 x := rotateRight64 1 x ^^^ rotateRight64 8 x ^^^ x >>> 7
  smallSigma1 x := rotateRight64 19 x ^^^ rotateRight64 61 x ^^^ x >>> 6
  constants := constants64

def absorb64 (s : State UInt64) (block : Bytes) : State UInt64 :=
  absorb parameters64 s (Bytes.words64BigEndian block)

def sha512 : Compression where
  State := State UInt64
  blockSize := 128
  initial :=
    ⟨0x6a09e667f3bcc908, 0xbb67ae8584caa73b, 0x3c6ef372fe94f82b, 0xa54ff53a5f1d36f1,
    0x510e527fade682d1, 0x9b05688c2b3e6c1f, 0x1f83d9abfb41bd6b, 0x5be0cd19137e2179⟩
  absorb := absorb64
  lengthWidth := 16
  lengthField := Bytes.ofNatBigEndian 16
  output s := s.toList.flatMap Bytes.ofWord64BigEndian

def sha384 : Compression where
  State := State UInt64
  blockSize := 128
  initial :=
    ⟨0xcbbb9d5dc1059ed8, 0x629a292a367cd507, 0x9159015a3070dd17, 0x152fecd8f70e5939,
    0x67332667ffc00b31, 0x8eb44a8768581511, 0xdb0c2e0d64f98fa7, 0x47b5481dbefa4fa4⟩
  absorb := absorb64
  lengthWidth := 16
  lengthField := Bytes.ofNatBigEndian 16
  output s := (s.toList.flatMap Bytes.ofWord64BigEndian).take 48

end StreamCrypto.Digest.Sha2
