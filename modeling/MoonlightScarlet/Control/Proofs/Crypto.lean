import Mathlib.Logic.Equiv.Basic
import MoonlightScarlet.Support.Blocks
import MoonlightScarlet.Control.Proofs.Busy
/-!
# The pairing cipher

The loops of the cipher work on the blocks of a padded text.  Of the cipher itself only
that decryption inverts encryption is used.
-/

namespace MoonlightScarlet.Control

open Support.Blocks

theorem firstBlock_append (block : Block) (rest : Bytes) :
    firstBlock (block.toList ++ rest) = block := by
  refine Vector.ext fun i hi => ?_
  have hlength : i < block.toList.length := by rwa [Vector.length_toList]
  rw [firstBlock, Vector.getElem_ofFn, List.getD_eq_getElem?_getD,
    List.getElem?_append_left hlength, List.getElem?_eq_getElem hlength, Option.getD_some,
    Vector.getElem_toList]

theorem mapBlocks_join (cipher : Block → Block) (blocks : List Block) :
    mapBlocks cipher blocks.length (join blocks) = join (blocks.map cipher) := by
  induction blocks with
  | nil => rfl
  | cons block blocks ih =>
      have hrest : (block.toList ++ join blocks).drop 16 = join blocks :=
        List.drop_left' block.length_toList
      rw [List.length_cons, mapBlocks, join_cons, firstBlock_append, hrest, ih]
      rfl

theorem mapChunks_join (cipher : Block → Block) (blocks : List Block) :
    mapChunks cipher (join blocks) = join (blocks.map cipher) := by
  rw [mapChunks, length_join, Nat.mul_div_cancel _ (by decide), mapBlocks_join]

/-- The blocks of a text that fills them. -/
theorem exists_blocks {bytes : Bytes} (h : 16 ∣ bytes.length) :
    ∃ blocks : List Block, bytes = join blocks := by
  obtain ⟨blocks, -, hblocks⟩ :=
    exists_join (bytes.length / 16) bytes (Nat.div_mul_cancel h).symm
  exact ⟨blocks, hblocks⟩

/-- The bytes up to the next multiple of sixteen. -/
def padding (length : Nat) : Nat := (16 - length % 16) % 16

def zeroPad (bytes : Bytes) : Bytes := bytes ++ List.replicate (padding bytes.length) 0

theorem padding_lt (length : Nat) : padding length < 16 := Nat.mod_lt _ (by decide)

theorem length_zeroPad (bytes : Bytes) :
    (zeroPad bytes).length = (bytes.length + 15) / 16 * 16 := by
  rw [zeroPad, List.length_append, List.length_replicate, padding]
  omega

theorem dvd_length_zeroPad (bytes : Bytes) : 16 ∣ (zeroPad bytes).length :=
  ⟨(bytes.length + 15) / 16, (length_zeroPad bytes).trans (Nat.mul_comm _ _)⟩

theorem zeroPad_of_dvd {bytes : Bytes} (h : 16 ∣ bytes.length) : zeroPad bytes = bytes := by
  have hnone : padding bytes.length = 0 := by
    rw [padding]
    omega
  rw [zeroPad, hnone, List.replicate_zero, List.append_nil]

theorem zeroPad_append {front : Bytes} (h : 16 ∣ front.length) (back : Bytes) :
    zeroPad (front ++ back) = front ++ zeroPad back := by
  have hsame : padding (front ++ back).length = padding back.length := by
    rw [padding, padding, List.length_append]
    omega
  rw [zeroPad, hsame, zeroPad, List.append_assoc]

/-- A slice has at most `isize::MAX` bytes. -/
def IsSlice (bytes : Bytes) : Prop := bytes.length ≤ 2 ^ 63 - 1

section Cipher

variable (lib : Libraries) (key : Block)

theorem aesEncryptZeroPadded_eq {plaintext : Bytes} (h : IsSlice plaintext) :
    lib.aesEncryptZeroPadded plaintext key =
      .ok (mapChunks (lib.encryptBlock key) (zeroPad plaintext)) := by
  unfold Libraries.aesEncryptZeroPadded
  cases plaintext with
  | nil => rfl
  | cons byte rest =>
      have hlength : (byte :: rest).length + 15 < UInt64.size := by
        unfold IsSlice at h
        have hsize : UInt64.size = 18446744073709551616 := rfl
        omega
      have hpadded : ((byte :: rest).length + 15) / 16 * 16 - (byte :: rest).length =
          padding (byte :: rest).length := by
        rw [padding]
        omega
      rw [List.isEmpty_cons, if_neg Bool.false_ne_true, if_pos hlength]
      dsimp only
      rw [hpadded, zeroPad]

theorem aesDecrypt_eq {ciphertext : Bytes} (h : 16 ∣ ciphertext.length) :
    lib.aesDecrypt ciphertext key = .ok (mapChunks (lib.decryptBlock key) ciphertext) :=
  if_neg (not_not.mpr (Nat.mod_eq_zero_of_dvd h))

theorem aesDecrypt_rejects {ciphertext : Bytes} (h : ¬16 ∣ ciphertext.length) :
    lib.aesDecrypt ciphertext key =
      .error (.crypto "AES ciphertext length is not a multiple of 16") :=
  if_pos fun hzero => h (Nat.dvd_of_mod_eq_zero hzero)

/-- There are 256 bytes. -/
theorem finite_byte : Finite UInt8 :=
  Finite.of_injective UInt8.toFin fun _ _ h => UInt8.toFin_inj.mp h

section Inverse

variable {lib key} (hinverse : ∀ block, lib.decryptBlock key (lib.encryptBlock key block) = block)
include hinverse

theorem encrypt_decryptBlock (block : Block) :
    lib.encryptBlock key (lib.decryptBlock key block) = block :=
  have := finite_byte
  right_inverse hinverse block

theorem aes_decrypt_encrypt {plaintext : Bytes} (h : IsSlice plaintext) :
    ∃ ciphertext, lib.aesEncryptZeroPadded plaintext key = .ok ciphertext ∧
      lib.aesDecrypt ciphertext key = .ok (zeroPad plaintext) := by
  obtain ⟨blocks, hblocks⟩ := exists_blocks (dvd_length_zeroPad plaintext)
  have hchunks : mapChunks (lib.encryptBlock key) (zeroPad plaintext) =
      join (blocks.map (lib.encryptBlock key)) := by
    rw [hblocks, mapChunks_join]
  have haligned : 16 ∣ (join (blocks.map (lib.encryptBlock key))).length := by
    rw [length_join]
    exact Nat.dvd_mul_left 16 _
  refine ⟨_, aesEncryptZeroPadded_eq lib key h, ?_⟩
  rw [hchunks, aesDecrypt_eq lib key haligned, mapChunks_join, map_inverse hinverse, hblocks]

theorem aes_encrypt_decrypt {ciphertext : Bytes} (h : IsSlice ciphertext)
    (haligned : 16 ∣ ciphertext.length) :
    ∃ plaintext, lib.aesDecrypt ciphertext key = .ok plaintext ∧
      lib.aesEncryptZeroPadded plaintext key = .ok ciphertext := by
  obtain ⟨blocks, rfl⟩ := exists_blocks haligned
  have hlength : (join (blocks.map (lib.decryptBlock key))).length = (join blocks).length := by
    rw [length_join, length_join, List.length_map]
  have hslice : IsSlice (join (blocks.map (lib.decryptBlock key))) := by
    rw [IsSlice, hlength]
    exact h
  have hpadded := zeroPad_of_dvd (hlength ▸ haligned)
  refine ⟨join (blocks.map (lib.decryptBlock key)), ?_, ?_⟩
  · rw [aesDecrypt_eq lib key haligned, mapChunks_join]
  · rw [aesEncryptZeroPadded_eq lib key hslice, hpadded, mapChunks_join,
      map_inverse (encrypt_decryptBlock hinverse)]

end Inverse

/-- In codebook mode no block depends on another. -/
theorem aes_encrypt_append {front back : Bytes} (h : IsSlice (front ++ back))
    (haligned : 16 ∣ front.length) :
    ∃ encryptedFront encryptedBack,
      lib.aesEncryptZeroPadded front key = .ok encryptedFront ∧
      lib.aesEncryptZeroPadded back key = .ok encryptedBack ∧
      lib.aesEncryptZeroPadded (front ++ back) key =
        .ok (encryptedFront ++ encryptedBack) := by
  have hfront : IsSlice front := by
    unfold IsSlice at h ⊢
    rw [List.length_append] at h
    omega
  have hback : IsSlice back := by
    unfold IsSlice at h ⊢
    rw [List.length_append] at h
    omega
  refine ⟨_, _, aesEncryptZeroPadded_eq lib key hfront, aesEncryptZeroPadded_eq lib key hback, ?_⟩
  obtain ⟨blocks, rfl⟩ := exists_blocks haligned
  obtain ⟨blocks', hblocks'⟩ := exists_blocks (dvd_length_zeroPad back)
  rw [aesEncryptZeroPadded_eq lib key h, zeroPad_append haligned, zeroPad_of_dvd haligned,
    hblocks', ← join_append, mapChunks_join, mapChunks_join, mapChunks_join, List.map_append,
    join_append]

end Cipher

theorem aes_round_trip (lib : Libraries)
    (hinverse : ∀ key block, lib.decryptBlock key (lib.encryptBlock key block) = block)
    (key : Block) :
    (∀ plaintext, IsSlice plaintext →
      ∃ ciphertext, lib.aesEncryptZeroPadded plaintext key = .ok ciphertext ∧
        ∃ zeros < 16, 16 ∣ plaintext.length + zeros ∧
          lib.aesDecrypt ciphertext key = .ok (plaintext ++ List.replicate zeros 0)) ∧
    lib.aesEncryptZeroPadded [] key = .ok [] ∧ lib.aesDecrypt [] key = .ok [] ∧
    (∀ ciphertext, IsSlice ciphertext → 16 ∣ ciphertext.length →
      ∃ plaintext, lib.aesDecrypt ciphertext key = .ok plaintext ∧
        lib.aesEncryptZeroPadded plaintext key = .ok ciphertext) ∧
    (∀ ciphertext, ¬16 ∣ ciphertext.length → lib.aesDecrypt ciphertext key =
      .error (.crypto "AES ciphertext length is not a multiple of 16")) ∧
    (∀ front back, IsSlice (front ++ back) → 16 ∣ front.length →
      ∃ encryptedFront encryptedBack,
        lib.aesEncryptZeroPadded front key = .ok encryptedFront ∧
        lib.aesEncryptZeroPadded back key = .ok encryptedBack ∧
        lib.aesEncryptZeroPadded (front ++ back) key =
          .ok (encryptedFront ++ encryptedBack)) := by
  refine ⟨fun plaintext h => ?_, rfl, rfl,
    fun ciphertext h haligned => aes_encrypt_decrypt (hinverse key) h haligned,
    fun ciphertext h => aesDecrypt_rejects lib key h,
    fun front back h haligned => aes_encrypt_append lib key h haligned⟩
  obtain ⟨ciphertext, hencrypt, hdecrypt⟩ := aes_decrypt_encrypt (hinverse key) h
  refine ⟨ciphertext, hencrypt, padding plaintext.length, padding_lt _, ?_, hdecrypt⟩
  have hdvd := dvd_length_zeroPad plaintext
  rwa [zeroPad, List.length_append, List.length_replicate] at hdvd

/-! ## A block of zeros -/

def zeroBlock : Block := Vector.replicate 16 0

/-- What AES-128 makes of sixteen zeros under a key of zeros. -/
def zeroCipher : Block :=
  ⟨#[0x66, 0xe9, 0x4b, 0xd4, 0xef, 0x8a, 0x2c, 0x3b,
    0x88, 0x4c, 0xfa, 0x59, 0xca, 0x34, 0x2b, 0x2e], rfl⟩

/-- A permutation that agrees with the cipher on these two blocks. -/
def zeroLibraries : Libraries :=
  { busyLibraries with
    encryptBlock := fun _ => Equiv.swap zeroBlock zeroCipher
    decryptBlock := fun _ => (Equiv.swap zeroBlock zeroCipher).symm }

theorem aes_round_trip_zero :
    (∃ ciphertext, zeroLibraries.aesEncryptZeroPadded [0] zeroBlock = .ok ciphertext ∧
      ∃ zeros < 16, 16 ∣ 1 + zeros ∧
        zeroLibraries.aesDecrypt ciphertext zeroBlock = .ok ([0] ++ List.replicate zeros 0)) ∧
    (∃ plaintext, zeroLibraries.aesDecrypt zeroCipher.toList zeroBlock = .ok plaintext ∧
      zeroLibraries.aesEncryptZeroPadded plaintext zeroBlock = .ok zeroCipher.toList) := by
  obtain ⟨hpadded, -, -, hback, -⟩ := aes_round_trip zeroLibraries
    (fun _ block => Equiv.symm_apply_apply (Equiv.swap zeroBlock zeroCipher) block) zeroBlock
  exact ⟨hpadded [0] (by unfold IsSlice; decide),
    hback zeroCipher.toList (by unfold IsSlice; decide) (by decide)⟩

end MoonlightScarlet.Control
