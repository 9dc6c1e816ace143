import MoonlightScarlet.Fec.Tables
import MoonlightScarlet.Support.Loops
import Mathlib.Logic.Function.Basic
/-!
# Reed-Solomon coding

`rs.c` of nanors over the reference row operations of `oblas_lite.c`.  A shard is the row of
its `bs` bytes; a matrix stored row after row is the function of row and column.
-/

namespace MoonlightScarlet.Fec

open Tables Support.Loops

/-- The entry of `GF2_8_MUL` that `oblas_lite_init` fills in. -/
def gf2_8Mul (a b : UInt8) : UInt8 :=
  if a = 0 ∨ b = 0 then 0
  else gf2_8Exp.getD ((gf2_8Log.getD a.toNat 0).toNat + (gf2_8Log.getD b.toNat 0).toNat) 0

/-- The entry of `GF2_8_INV`. -/
def inverse (a : UInt8) : UInt8 := gf2_8Inv.getD a.toNat 0

section Rows

variable {ι : Type*}

def oblAxpyRef (a b : ι → UInt8) (u : UInt8) : ι → UInt8 := fun k => a k ^^^ gf2_8Mul u (b k)

def oblAxiyRef (b : ι → UInt8) (u : UInt8) : ι → UInt8 := fun k => gf2_8Mul u (b k)

def oblScalRef (a : ι → UInt8) (u : UInt8) : ι → UInt8 := oblAxiyRef a u

/-- Adds `u` times the row `b` to the row `a`. -/
def axpy (a b : ι → UInt8) (u : UInt8) : ι → UInt8 :=
  if u = 0 then a
  else if u = 1 then fun k => a k ^^^ b k
  else oblAxpyRef a b u

/-- Multiplies the row `a` by `u`; a factor of zero leaves it as it is. -/
def scal (a : ι → UInt8) (u : UInt8) : ι → UInt8 :=
  if u < 2 then a else oblScalRef a u

end Rows

/-- `scal` on the part of a row from column `x` on. -/
def scalFrom (a : Nat → UInt8) (x : Nat) (u : UInt8) : Nat → UInt8 :=
  fun j => if x ≤ j then scal a u j else a j

abbrev Shards (bs : Nat) := Nat → Fin bs → UInt8

/-- The combination of the shards `b` that one row of a matrix says; what it starts from is
the first factor that is not zero. -/
def gemmRow {m : Nat} (ap : Nat → UInt8) (b : Shards m) (k : Nat) : Fin m → UInt8 :=
  let idx := skipWhile (fun i => ap i == 0) k 0
  if idx = k then fun _ => 0
  else
    let first := if ap idx = 1 then b idx else oblAxiyRef (b idx) (ap idx)
    (k - (idx + 1)).fold
      (fun i _ acc => axpy acc (b (idx + 1 + i)) (ap (idx + 1 + i))) first

/-- The products of the rows of `a` with the shards `b`, stored into the shards `c`. -/
def gemm {m : Nat} (a : Nat → Nat → UInt8) (b c : Shards m) (n k : Nat) : Shards m :=
  n.fold (fun row _ c => Function.update c row (gemmRow (a row) b k)) c

/-- The work matrix and the shards while the matrix is inverted. -/
structure Work (bs : Nat) where
  wrk : Nat → Nat → UInt8
  dst : Shards bs

section InvertMat

variable {bs : Nat}

/-- Takes the shard `c row`, which was received, out of the `i`-th parity shard in use. -/
def subtractShard (src : Nat → Nat → UInt8) (V0 : Nat) (c d : Nat → Nat) (i row : Nat)
    (dst : Shards bs) : Shards bs :=
  Function.update dst (c (V0 + i)) (axpy (dst (c (V0 + i))) (dst (c row)) (src (d i) (c row)))

def subtractPresent (src : Nat → Nat → UInt8) (V0 W : Nat) (c d : Nat → Nat)
    (dst : Shards bs) : Shards bs :=
  W.fold (fun i _ dst => V0.fold (fun row _ dst => subtractShard src V0 c d i row dst) dst) dst

/-- Makes the pivot of the row `x` one. -/
def normalizeRow (V0 : Nat) (c : Nat → Nat) (x : Nat) (s : Work bs) : Work bs :=
  let u := inverse (s.wrk x x)
  { wrk := Function.update s.wrk x (scalFrom (s.wrk x) x u)
    dst := Function.update s.dst (c (V0 + x)) (scal (s.dst (c (V0 + x))) u) }

/-- Clears the column `x` of a row below. -/
def eliminateRow (V0 : Nat) (c : Nat → Nat) (x row : Nat) (s : Work bs) : Work bs :=
  let u := s.wrk row x
  { wrk := Function.update s.wrk row (axpy (s.wrk row) (s.wrk x) u)
    dst := Function.update s.dst (c (V0 + row))
      (axpy (s.dst (c (V0 + row))) (s.dst (c (V0 + x))) u) }

/-- The column `x` of the forward pass. -/
def eliminateColumn (V0 W : Nat) (c : Nat → Nat) (x : Nat) (s : Work bs) : Work bs :=
  (W - (x + 1)).fold (fun i _ s => eliminateRow V0 c x (x + 1 + i) s) (normalizeRow V0 c x s)

/-- Takes the lost shard `x`, now known, out of a row above. -/
def substituteRow (V0 : Nat) (c : Nat → Nat) (wrk : Nat → Nat → UInt8) (x row : Nat)
    (dst : Shards bs) : Shards bs :=
  Function.update dst (c (V0 + row))
    (axpy (dst (c (V0 + row))) (dst (c (V0 + x))) (wrk row x))

/-- The column `x` of the backward pass. -/
def substituteColumn (V0 : Nat) (c : Nat → Nat) (wrk : Nat → Nat → UInt8) (x : Nat)
    (dst : Shards bs) : Shards bs :=
  x.fold (fun row _ dst => substituteRow V0 c wrk x row dst) dst

def invertMat (src : Nat → Nat → UInt8) (V0 K : Nat) (c d : Nat → Nat) (dst : Shards bs) :
    Shards bs :=
  let W := K - V0
  let s : Work bs :=
    { wrk := fun i j => src (d i) (c (V0 + j))
      dst := subtractPresent src V0 W c d dst }
  let s := W.fold (fun x _ s => eliminateColumn V0 W c x s) s
  W.foldRev (fun x _ dst => substituteColumn V0 c s.wrk x dst) s.dst

end InvertMat

/-- `reed_solomon`: the numbers of data and parity shards and the parity rows. -/
structure ReedSolomon where
  ds : Nat
  ps : Nat
  p : Nat → Nat → UInt8

def ReedSolomon.ts (rs : ReedSolomon) : Nat := rs.ds + rs.ps

def dataShardsMax : Nat := 255

def reedSolomonNew (ds ps : Int) : Option ReedSolomon :=
  if ds ≤ 0 ∨ ds > dataShardsMax ∨ ps ≤ 0 ∨ ps > dataShardsMax ∨ ds + ps > dataShardsMax then none
  else some {
    ds := ds.toNat
    ps := ps.toNat
    p := fun j i => inverse (UInt8.ofNat ((ps.toNat + i) ^^^ j)) }

variable {bs : Nat}

/-- The data shards that were received, in order; the marks have `ts` entries. -/
def presentColumns (rs : ReedSolomon) (marks : Nat → Bool) : Nat → Nat → List Nat
  | 0, _ => []
  | n + 1, j =>
      let j := skipWhile marks (rs.ts - j) j
      j :: presentColumns rs marks n (j + 1)

/-- Copies the next parity shards received over the lost data shards, until one of the two
runs out: the rows taken and the shards after it. -/
def borrowParity (rs : ReedSolomon) (marks : Nat → Bool) :
    List Nat → Nat → Shards bs → List Nat × Shards bs
  | [], _, data => ([], data)
  | erasure :: erasures, j, data =>
      let j := skipWhile marks (rs.ts - j) j
      if rs.ts ≤ j then ([], data)
      else
        let rest := borrowParity rs marks erasures (j + 1) (Function.update data erasure (data j))
        ((j - rs.ds) :: rest.1, rest.2)

/-- `reed_solomon_decode`: its result and the shards it leaves. -/
def reedSolomonDecode (rs : ReedSolomon) (data : Shards bs) (marks : Nat → Bool)
    (nrShards : Int) : Int × Shards bs :=
  if nrShards < rs.ts ∨ bs = 0 then (-1, data)
  else
    let erasures := (List.range rs.ds).filter marks
    let gaps := erasures.length
    let colperm := presentColumns rs marks (rs.ds - gaps) 0 ++ erasures
    let borrowed := borrowParity rs marks erasures rs.ds data
    let rowperm := borrowed.1
    if rowperm.length < gaps then (-1, borrowed.2)
    else
      (0, invertMat rs.p (rs.ds - gaps) rs.ds (colperm.getD · 0) (rowperm.getD · 0) borrowed.2)

/-- `reed_solomon_encode`: its result and the shards it leaves. -/
def reedSolomonEncode (rs : ReedSolomon) (shards : Shards bs) (nrShards : Int) :
    Int × Shards bs :=
  if nrShards < rs.ts ∨ bs = 0 then (-1, shards)
  else
    let parity := gemm rs.p shards (fun j => shards (rs.ds + j)) rs.ps rs.ds
    (0, fun j => if j < rs.ds then shards j else parity (j - rs.ds))

end MoonlightScarlet.Fec
