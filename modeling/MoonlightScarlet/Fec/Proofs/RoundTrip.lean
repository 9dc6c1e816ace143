import MoonlightScarlet.Fec.Proofs.Decoding
import MoonlightScarlet.Support.Cauchy
/-!
# Encoding and decoding

The encoder makes codewords, and the parity rows of `reed_solomon_new` are a Cauchy matrix.
So a coder takes any loss that leaves as many shards as there are data shards.
-/

namespace MoonlightScarlet.Fec

open Finset Support.Elimination Support.Cauchy Support.Loops

/-! ## The encoder -/

section Encoder

variable {m : ℕ}

/-- The combination of the shards that a row of the matrix says. -/
def rowProduct (ap : ℕ → UInt8) (b : Shards m) (k : ℕ) : Fin m → Galois :=
  ∑ i ∈ range k, (⟨ap i⟩ : Galois) • vector (b i)

/-- The shards after the first are added one by one. -/
theorem rowProduct_loop (ap : ℕ → UInt8) (b : Shards m) {start : Fin m → UInt8} {idx : ℕ}
    (hstart : vector start = rowProduct ap b (idx + 1)) (n : ℕ) :
    vector (n.fold (fun i _ acc => axpy acc (b (idx + 1 + i)) (ap (idx + 1 + i))) start) =
      rowProduct ap b (idx + 1 + n) := by
  refine fold_induct (fun i acc => vector acc = rowProduct ap b (idx + 1 + i)) hstart
    fun i _ acc hacc => ?_
  rw [vector_axpy, hacc, ← Nat.add_assoc, rowProduct, rowProduct, sum_range_succ]

theorem gemmRow_spec (ap : ℕ → UInt8) (b : Shards m) (k : ℕ) :
    vector (gemmRow ap b k) = rowProduct ap b k := by
  have hle := skipWhile_le (fun i => ap i == 0) k 0
  have hzero : ∀ n ≤ skipWhile (fun i => ap i == 0) k 0, rowProduct ap b n = 0 := by
    intro n hn
    refine sum_eq_zero fun i hi => ?_
    have htest : (fun i => ap i == 0) i = true :=
      test_of_lt_skipWhile i.zero_le ((mem_range.mp hi).trans_le hn)
    rw [Galois.mk_eq_zero.mpr (beq_iff_eq.mp htest), zero_smul]
  simp only [gemmRow]
  split
  case isTrue hall =>
    rw [hzero k hall.ge]
    rfl
  case isFalse hsome =>
    generalize hidx : skipWhile (fun i => ap i == 0) k 0 = idx at *
    have hstart : vector (if ap idx = 1 then b idx else oblAxiyRef (b idx) (ap idx)) =
        rowProduct ap b (idx + 1) := by
      rw [rowProduct, sum_range_succ, ← rowProduct, hzero idx le_rfl, zero_add]
      split
      case isTrue hone => rw [hone, Galois.mk_one, one_smul]
      case isFalse => exact funext fun k => Galois.mk_mul (ap idx) (b idx k)
    rw [rowProduct_loop ap b hstart, Nat.add_sub_cancel' (by omega)]

theorem gemm_spec (a : ℕ → ℕ → UInt8) (b c : Shards m) (n k : ℕ) :
    ∀ row < n, vector (gemm a b c n k row) = rowProduct (a row) b k := by
  refine fold_induct (fun n (c' : Shards m) =>
      ∀ row < n, vector (c' row) = rowProduct (a row) b k)
    (fun row hrow => absurd hrow row.not_lt_zero) fun n _ c' hc' row hrow => ?_
  rcases Nat.lt_succ_iff_lt_or_eq.mp hrow with hlt | rfl
  · rw [Function.update_of_ne hlt.ne]
    exact hc' row hlt
  · rw [Function.update_self, gemmRow_spec]

end Encoder

variable {bs : ℕ} {rs : ReedSolomon} {nrShards : ℤ}

theorem reedSolomonEncode_data (shards : Shards bs) {t : ℕ} (ht : t < rs.ds) :
    (reedSolomonEncode rs shards nrShards).2 t = shards t := by
  rw [reedSolomonEncode]
  split
  · rfl
  · exact if_pos ht

/-- The encoder makes a codeword. -/
theorem reedSolomonEncode_codeword (shards : Shards bs) (hshards : (rs.ts : ℤ) ≤ nrShards)
    (hbs : bs ≠ 0) : Codeword rs (reedSolomonEncode rs shards nrShards).2 := by
  intro j hj
  have hparity : (reedSolomonEncode rs shards nrShards).2 (rs.ds + j) =
      gemm rs.p shards (fun j => shards (rs.ds + j)) rs.ps rs.ds j := by
    rw [reedSolomonEncode, if_neg (by omega)]
    dsimp only
    rw [if_neg (by omega), Nat.add_sub_cancel_left]
  rw [hparity, gemm_spec _ _ _ _ _ j hj, rowProduct]
  exact sum_congr rfl fun k hk => by rw [reedSolomonEncode_data shards (mem_range.mp hk)]

/-! ## The rows of a new coder -/

/-- The element that a number below 256 stands for. -/
def point (n : ℕ) : Galois := ⟨UInt8.ofNat n⟩

theorem point_injective {a b : ℕ} (ha : a < 256) (hb : b < 256) (h : point a = point b) :
    a = b := by
  have hbyte := congrArg UInt8.toNat (congrArg Galois.byte h)
  simp only [point, UInt8.toNat_ofNat'] at hbyte
  omega

theorem reedSolomonNew_regular {ds ps : ℤ} (h : reedSolomonNew ds ps = some rs) :
    RegularParity rs := by
  unfold reedSolomonNew at h
  split at h
  case isTrue => exact absurd h.symm (Option.some_ne_none rs)
  case isFalse hbounds =>
    rw [← Option.some.inj h]
    simp only [dataShardsMax, not_or, not_le, not_lt] at hbounds
    intro k d c hd hc hps hds
    dsimp only at hps hds
    have hentry : ∀ i j, (⟨inverse (UInt8.ofNat ((ps.toNat + c j) ^^^ d i))⟩ : Galois) =
        (point (d i) - point (ps.toNat + c j))⁻¹ := by
      intro i j
      rw [Galois.mk_inverse, UInt8.ofNat_xor, Galois.mk_xor, sub_eq_add_neg, Galois.neg_eq,
        add_comm]
      rfl
    have hcolumn : ∀ j < k, ps.toNat + c j < 256 := fun j hj => by
      have := hds j hj
      omega
    have hrow : ∀ i < k, d i < 256 := fun i hi => by
      have := hps i hi
      omega
    simp only [hentry]
    refine cauchy_regular (p := fun i => point (d i)) (q := fun j => point (ps.toNat + c j))
      (fun i hi j hj heq => ?_) (fun i hi j hj heq => ?_) fun i hi j hj hzero => ?_
    · rw [mem_coe, mem_range] at hi hj
      exact hd i hi j hj (point_injective (hrow i hi) (hrow j hj) heq)
    · rw [mem_coe, mem_range] at hi hj
      have hsame := point_injective (hcolumn i hi) (hcolumn j hj) heq
      exact hc i hi j hj (by omega)
    · -- The points of the rows are below those of the columns.
      have hsame := point_injective (hrow i hi) (hcolumn j hj) (sub_eq_zero.mp hzero)
      have := hps i hi
      omega

/-! ## The round trip -/

/-- The round trip of a coder whose parity rows have regular blocks. -/
theorem decode_encode_of_regular (hregular : RegularParity rs)
    (hshards : (rs.ts : ℤ) ≤ nrShards) (hbs : bs ≠ 0) (shards damaged : Shards bs)
    (marks : ℕ → Bool)
    (hreceived : ∀ t < rs.ts, marks t = false →
      damaged t = (reedSolomonEncode rs shards nrShards).2 t) :
    ((reedSolomonDecode rs damaged marks nrShards).1 = 0 ↔
        rs.ds ≤ (received marks 0 rs.ts).length) ∧
      (rs.ds ≤ (received marks 0 rs.ts).length →
        ∀ t < rs.ds, (reedSolomonDecode rs damaged marks nrShards).2 t = shards t) ∧
      ∀ t, marks t = false → (reedSolomonDecode rs damaged marks nrShards).2 t = damaged t := by
  by_cases henough : rs.ds ≤ (received marks 0 rs.ts).length
  · obtain ⟨hresult, hdata, hparity⟩ := reedSolomonDecode_restores hregular
      (reedSolomonEncode_codeword shards hshards hbs) hshards hbs hreceived henough
    refine ⟨iff_of_true hresult henough, fun _ t ht => ?_, fun t hmark => ?_⟩
    · rw [hdata t ht, reedSolomonEncode_data shards ht]
    · rcases Nat.lt_or_ge t rs.ds with hlt | hge
      · rw [hdata t hlt, hreceived t (hlt.trans_le (Nat.le_add_right _ _)) hmark]
      · exact hparity t hge
  · have hgives := reedSolomonDecode_gives_up damaged hshards hbs (Nat.not_le.mp henough)
    rw [hgives]
    refine ⟨iff_of_false (show (-1 : ℤ) ≠ 0 by decide) henough, fun h => absurd h henough,
      fun t hmark => borrowed_same fun hlost => ?_⟩
    rw [(mem_lost.mp hlost).2] at hmark
    exact absurd hmark (by decide)

/-- Whatever is lost on the way: with as many shards as there are data shards the decoder
returns the data that was encoded, and with fewer an error.  It touches no shard received. -/
theorem decode_encode {ds ps : ℤ} (hnew : reedSolomonNew ds ps = some rs)
    (hshards : (rs.ts : ℤ) ≤ nrShards) (hbs : bs ≠ 0) (shards damaged : Shards bs)
    (marks : ℕ → Bool)
    (hreceived : ∀ t < rs.ts, marks t = false →
      damaged t = (reedSolomonEncode rs shards nrShards).2 t) :
    ((reedSolomonDecode rs damaged marks nrShards).1 = 0 ↔
        rs.ds ≤ (received marks 0 rs.ts).length) ∧
      (rs.ds ≤ (received marks 0 rs.ts).length →
        ∀ t < rs.ds, (reedSolomonDecode rs damaged marks nrShards).2 t = shards t) ∧
      ∀ t, marks t = false → (reedSolomonDecode rs damaged marks nrShards).2 t = damaged t :=
  decode_encode_of_regular (reedSolomonNew_regular hnew) hshards hbs shards damaged marks hreceived

section Sample

def sampleCoder : ReedSolomon where
  ds := 4
  ps := 2
  p j i := inverse (UInt8.ofNat ((2 + i) ^^^ j))

def sampleShards : Shards 2 := fun t k => UInt8.ofNat (7 * t + k.val)

def sampleMarks : ℕ → Bool := fun t => t == 1 || t == 4

/-- One data shard and one parity shard are lost. -/
def sampleDamaged : Shards 2 := fun t =>
  if sampleMarks t then fun _ => 0 else (reedSolomonEncode sampleCoder sampleShards 6).2 t

theorem decode_encode_sample :
    (reedSolomonDecode sampleCoder sampleDamaged sampleMarks 6).1 = 0 ∧
      (reedSolomonDecode sampleCoder sampleDamaged sampleMarks 6).2 1 = sampleShards 1 := by
  have hnew : reedSolomonNew 4 2 = some sampleCoder := rfl
  have hshards : (sampleCoder.ts : ℤ) ≤ 6 := by decide
  have hround := decode_encode hnew hshards (by decide) sampleShards sampleDamaged sampleMarks
    fun t _ hmark => by rw [sampleDamaged, hmark]; rfl
  exact ⟨hround.1.mpr (by decide), hround.2.1 (by decide) 1 (by decide)⟩

end Sample

end MoonlightScarlet.Fec
