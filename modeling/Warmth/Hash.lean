import Warmth.Bytes

namespace Warmth

open Codec

/-- One entry of the CRC-32 table: eight shift steps of the byte `i`. -/
def crcTable (i : UInt32) : UInt32 :=
  (List.range 8).foldl
    (fun (c : UInt32) _ => if (c &&& 1) != 0 then (0xEDB88320 : UInt32) ^^^ (c >>> 1) else c >>> 1) i

def crc32 (data : Bytes) (seed : UInt32 := 0xFFFFFFFF) : UInt32 :=
  data.foldl (fun c p => crcTable ((c ^^^ p.toUInt32) &&& 0xFF) ^^^ (c >>> 8)) seed ^^^ 0xFFFFFFFF

structure Sha256 where
  state : List UInt32 :=
    [0x6a09e667, 0xbb67ae85, 0x3c6ef372, 0xa54ff53a, 0x510e527f, 0x9b05688c, 0x1f83d9ab, 0x5be0cd19]
  total : UInt64 := 0
  buf : Bytes := []

namespace Sha256

def rotr (x : UInt32) (n : UInt32) : UInt32 := (x >>> n) ||| (x <<< (32 - n))

def roundConstants : List UInt32 := [
  0x428a2f98, 0x71374491, 0xb5c0fbcf, 0xe9b5dba5, 0x3956c25b,
  0x59f111f1, 0x923f82a4, 0xab1c5ed5, 0xd807aa98, 0x12835b01,
  0x243185be, 0x550c7dc3, 0x72be5d74, 0x80deb1fe, 0x9bdc06a7,
  0xc19bf174, 0xe49b69c1, 0xefbe4786, 0x0fc19dc6, 0x240ca1cc,
  0x2de92c6f, 0x4a7484aa, 0x5cb0a9dc, 0x76f988da, 0x983e5152,
  0xa831c66d, 0xb00327c8, 0xbf597fc7, 0xc6e00bf3, 0xd5a79147,
  0x06ca6351, 0x14292967, 0x27b70a85, 0x2e1b2138, 0x4d2c6dfc,
  0x53380d13, 0x650a7354, 0x766a0abb, 0x81c2c92e, 0x92722c85,
  0xa2bfe8a1, 0xa81a664b, 0xc24b8b70, 0xc76c51a3, 0xd192e819,
  0xd6990624, 0xf40e3585, 0x106aa070, 0x19a4c116, 0x1e376c08,
  0x2748774c, 0x34b0bcb5, 0x391c0cb3, 0x4ed8aa4a, 0x5b9cca4f,
  0x682e6ff3, 0x748f82ee, 0x78a5636f, 0x84c87814, 0x8cc70208,
  0x90befffa, 0xa4506ceb, 0xbef9a3f7, 0xc67178f2]

def schedule (p : Bytes) : List UInt32 :=
  let first := (List.range 16).map fun i => UInt32.ofNat (ofBe ((p.drop (i * 4)).take 4))
  (List.range 48).foldl (fun w j =>
    let i := j + 16
    let s0 := rotr (w.getD (i - 15) 0) 7 ^^^ rotr (w.getD (i - 15) 0) 18 ^^^ (w.getD (i - 15) 0 >>> 3)
    let s1 := rotr (w.getD (i - 2) 0) 17 ^^^ rotr (w.getD (i - 2) 0) 19 ^^^ (w.getD (i - 2) 0 >>> 10)
    w ++ [w.getD (i - 16) 0 + s0 + w.getD (i - 7) 0 + s1]) first

def round (v : List UInt32) (k w : UInt32) : List UInt32 :=
  match v with
  | [a, b, c, d, e, f, g, h] =>
    let s1 := rotr e 6 ^^^ rotr e 11 ^^^ rotr e 25
    let ch := (e &&& f) ^^^ (~~~e &&& g)
    let t1 := h + s1 + ch + k + w
    let s0 := rotr a 2 ^^^ rotr a 13 ^^^ rotr a 22
    let maj := (a &&& b) ^^^ (a &&& c) ^^^ (b &&& c)
    let t2 := s0 + maj
    [t1 + t2, a, b, c, d + t1, e, f, g]
  | other => other

def transform (state : List UInt32) (p : Bytes) : List UInt32 :=
  let v := (roundConstants.zip (schedule p)).foldl (fun v kw => round v kw.1 kw.2) state
  List.zipWith (· + ·) state v

/-- The buffer-filling loop of `update`. Every turn takes at least one byte while the buffer
is short of 64, so the number of bytes is budget enough. -/
def absorb : Nat → Bytes → Sha256 → Sha256
  | 0, _, h => h
  | fuel + 1, p, h =>
    if p.isEmpty then h else
    let n := min p.length (64 - h.buf.length)
    let buf := h.buf ++ p.take n
    if buf.length == 64 then
      absorb fuel (p.drop n) { h with state := transform h.state buf, buf := [] }
    else absorb fuel (p.drop n) { h with buf }

def update (h : Sha256) (data : Bytes) : Sha256 :=
  absorb data.length data { h with total := h.total + UInt64.ofNat data.length }

/-- `while (bufLen_ != 56) update(&zero, 1)`; 64 turns bring any buffer length to 56. -/
def padZeros : Nat → Sha256 → Sha256
  | 0, h => h
  | fuel + 1, h => if h.buf.length == 56 then h else padZeros fuel (h.update [0x00])

def finish (h : Sha256) : Bytes :=
  let bitLen := h.total * 8
  let padded := padZeros 64 (h.update [0x80])
  let last := padded.update (beBytes 8 bitLen.toNat)
  last.state.flatMap fun word => beBytes 4 word.toNat

def digest (data : Bytes) : Bytes := (({} : Sha256).update data).finish

end Sha256

def digest16 (data : Bytes) : Bytes := (Sha256.digest data).take 16

end Warmth
