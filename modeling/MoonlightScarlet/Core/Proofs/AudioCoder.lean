import MoonlightScarlet.Core.RtpAudioQueue
import MoonlightScarlet.Fec.Proofs.RoundTrip
/-!
# The coder of the audio queue

The parity rows that replace those of `reed_solomon_new` are no Cauchy matrix, but their
entries and their minors are not zero, so any four shards of a block are enough.
-/

namespace MoonlightScarlet.Core.RtpAudioQueue

open Fec Support.Elimination

theorem parity_ne_zero : ∀ (i : Fin 2) (j : Fin 4), coder.p i j ≠ 0 := by decide +kernel

theorem parity_minor_ne_zero : ∀ (i i' : Fin 2) (j j' : Fin 4), i ≠ i' → j ≠ j' →
    gf2_8Mul (coder.p i j) (coder.p i' j') ≠ gf2_8Mul (coder.p i j') (coder.p i' j) := by
  decide +kernel

/-- Two rows make blocks of at most two rows. -/
theorem coder_regular : RegularParity coder := by
  intro k d c hd hc hps hds
  change ∀ i < k, d i < 2 at hps
  change ∀ i < k, c i < 4 at hds
  have hk : k ≤ 2 := by
    by_contra hgt
    have h0 := hps 0 (by omega)
    have h1 := hps 1 (by omega)
    have h2 := hps 2 (by omega)
    have h01 := mt (hd 0 (by omega) 1 (by omega)) (by decide)
    have h02 := mt (hd 0 (by omega) 2 (by omega)) (by decide)
    have h12 := mt (hd 1 (by omega) 2 (by omega)) (by decide)
    omega
  rcases Nat.le_succ_iff.mp hk with hle | rfl
  · rcases Nat.le_one_iff_eq_zero_or_eq_one.mp hle with rfl | rfl
    · exact fun v _ j hj => absurd hj j.not_lt_zero
    · have hentry := parity_ne_zero ⟨d 0, hps 0 (by decide)⟩ ⟨c 0, hds 0 (by decide)⟩
      exact regular_one (mt Galois.mk_eq_zero.mp hentry)
  · have hrows : d 0 ≠ d 1 := mt (hd 0 (by decide) 1 (by decide)) (by decide)
    have hcolumns : c 0 ≠ c 1 := mt (hc 0 (by decide) 1 (by decide)) (by decide)
    have hminor := parity_minor_ne_zero ⟨d 0, hps 0 (by decide)⟩ ⟨d 1, hps 1 (by decide)⟩
      ⟨c 0, hds 0 (by decide)⟩ ⟨c 1, hds 1 (by decide)⟩ (by simpa using hrows)
      (by simpa using hcolumns)
    refine regular_two fun hzero => hminor ?_
    rw [sub_eq_zero, ← Galois.mk_mul, ← Galois.mk_mul] at hzero
    exact congrArg Galois.byte hzero

/-- Any four of the six shards of a block give its audio data back. -/
theorem audio_block_recovered {bs : ℕ} (hbs : bs ≠ 0) (shards damaged : Shards bs)
    (marks : ℕ → Bool)
    (hreceived : ∀ t < 6, marks t = false → damaged t = (reedSolomonEncode coder shards 6).2 t) :
    ((reedSolomonDecode coder damaged marks 6).1 = 0 ↔ 4 ≤ (received marks 0 6).length) ∧
      (4 ≤ (received marks 0 6).length →
        ∀ t < 4, (reedSolomonDecode coder damaged marks 6).2 t = shards t) ∧
      ∀ t, marks t = false → (reedSolomonDecode coder damaged marks 6).2 t = damaged t := by
  have hshards : (coder.ts : ℤ) ≤ 6 := le_refl (6 : ℤ)
  exact decode_encode_of_regular coder_regular hshards hbs shards damaged marks hreceived

section Sample

def sampleBlock : Shards 3 := fun t k => UInt8.ofNat (40 * t + k.val)

def sampleLost : ℕ → Bool := fun t => t == 0 || t == 3

def sampleArrived : Shards 3 := fun t =>
  if sampleLost t then fun _ => 0 else (reedSolomonEncode coder sampleBlock 6).2 t

theorem audio_block_recovered_sample :
    (reedSolomonDecode coder sampleArrived sampleLost 6).1 = 0 ∧
      (reedSolomonDecode coder sampleArrived sampleLost 6).2 0 = sampleBlock 0 ∧
      (reedSolomonDecode coder sampleArrived sampleLost 6).2 3 = sampleBlock 3 := by
  have hround := audio_block_recovered (by decide) sampleBlock sampleArrived sampleLost
    fun t _ hmark => by rw [sampleArrived, hmark]; rfl
  have hrestored := hround.2.1 (by decide)
  exact ⟨hround.1.mpr (by decide), hrestored 0 (by decide), hrestored 3 (by decide)⟩

end Sample

end MoonlightScarlet.Core.RtpAudioQueue
