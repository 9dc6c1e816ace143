import MoonlightScarlet.Fec.ReedSolomon
import Mathlib.Data.List.Nodup
import Mathlib.Data.List.Range
/-!
# Which shards the decoder uses

The loops of `reed_solomon_decode` over the marks pick the data shards received, in order,
and the first parity shards received, one for each data shard lost.
-/

namespace MoonlightScarlet.Fec

open Support.Loops

variable {bs : ℕ}

/-- The places from `j` to `n` whose shards were received. -/
def received (marks : ℕ → Bool) (j n : ℕ) : List ℕ := (List.range' j (n - j)).filter (!marks ·)

theorem mem_received {marks : ℕ → Bool} {j n t : ℕ} :
    t ∈ received marks j n ↔ j ≤ t ∧ t < n ∧ marks t = false := by
  rw [received, List.mem_filter, List.mem_range'_1, Bool.not_eq_true']
  constructor
  · rintro ⟨⟨hj, ht⟩, hmark⟩
    exact ⟨hj, by omega, hmark⟩
  · rintro ⟨hj, ht, hmark⟩
    exact ⟨⟨hj, by omega⟩, hmark⟩

theorem nodup_received (marks : ℕ → Bool) (j n : ℕ) : (received marks j n).Nodup :=
  (List.nodup_range' 1).filter _

/-- The search ends at the first shard received. -/
theorem received_eq_cons {marks : ℕ → Bool} {j n : ℕ} (hlt : skipWhile marks (n - j) j < n) :
    received marks j n =
      skipWhile marks (n - j) j :: received marks (skipWhile marks (n - j) j + 1) n := by
  have hle := le_skipWhile marks (n - j) j
  have hskipped : ∀ t, j ≤ t → t < skipWhile marks (n - j) j → marks t = true :=
    fun t => test_of_lt_skipWhile
  have hstop : marks (skipWhile marks (n - j) j) = false := test_skipWhile (by omega)
  generalize skipWhile marks (n - j) j = r at *
  have hsplit : List.range' j (n - j) =
      List.range' j (r - j) ++ r :: List.range' (r + 1) (n - (r + 1)) := by
    rw [← List.range'_succ, show n - j = (r - j) + (n - (r + 1) + 1) by omega,
      ← List.range'_append_1, Nat.add_sub_cancel' hle]
  have hnone : (List.range' j (r - j)).filter (!marks ·) = [] := by
    refine List.filter_eq_nil_iff.mpr fun t ht => ?_
    rw [List.mem_range'_1] at ht
    simp [hskipped t ht.1 (by omega)]
  rw [received, hsplit, List.filter_append, hnone, List.nil_append, List.filter_cons_of_pos]
  · rfl
  · simp [hstop]

/-- The search runs past the end when nothing more was received. -/
theorem received_eq_nil {marks : ℕ → Bool} {j n : ℕ}
    (hge : n ≤ skipWhile marks (n - j) j) : received marks j n = [] := by
  refine List.filter_eq_nil_iff.mpr fun t ht => ?_
  rw [List.mem_range'_1] at ht
  have hmark : marks t = true := test_of_lt_skipWhile ht.1 (show t < skipWhile marks (n - j) j by
    omega)
  simp [hmark]

theorem presentColumns_eq (rs : ReedSolomon) (marks : ℕ → Bool) {n j : ℕ}
    (hn : n ≤ (received marks j rs.ds).length) :
    presentColumns rs marks n j = (received marks j rs.ds).take n := by
  induction n generalizing j with
  | zero => rfl
  | succ n ih =>
      have hlt : skipWhile marks (rs.ds - j) j < rs.ds := by
        by_contra hge
        rw [received_eq_nil (Nat.not_lt.mp hge)] at hn
        exact absurd hn (Nat.not_succ_le_zero n)
      -- The source looks on among the parity shards, but does not get there.
      have hsame : skipWhile marks (rs.ts - j) j = skipWhile marks (rs.ds - j) j := by
        have hle := le_skipWhile marks (rs.ds - j) j
        have hts : rs.ds ≤ rs.ts := Nat.le_add_right _ _
        exact skipWhile_eq (fun t => test_of_lt_skipWhile) (test_skipWhile (by omega)) hle
          (by omega)
      rw [received_eq_cons hlt, List.length_cons] at hn
      rw [presentColumns, hsame, received_eq_cons hlt, List.take_succ_cons,
        ih (Nat.le_of_succ_le_succ hn)]

/-- The parity rows taken are those of the first parity shards received. -/
theorem borrowParity_rows (rs : ReedSolomon) (marks : ℕ → Bool) (erasures : List ℕ) {j : ℕ}
    (data : Shards bs) :
    (borrowParity rs marks erasures j data).1 =
      ((received marks j rs.ts).take erasures.length).map (· - rs.ds) := by
  induction erasures generalizing j data with
  | nil => rfl
  | cons e es ih =>
      simp only [borrowParity]
      split
      case isTrue hge => rw [received_eq_nil hge, List.take_nil, List.map_nil]
      case isFalse hlt =>
        rw [received_eq_cons (Nat.not_le.mp hlt), List.length_cons, List.take_succ_cons,
          List.map_cons, ih]

/-- Only lost data shards are overwritten. -/
theorem borrowParity_same (rs : ReedSolomon) (marks : ℕ → Bool) (erasures : List ℕ) {j : ℕ}
    (data : Shards bs) {t : ℕ} (ht : t ∉ erasures) :
    (borrowParity rs marks erasures j data).2 t = data t := by
  induction erasures generalizing j data with
  | nil => rfl
  | cons e es ih =>
      rw [List.mem_cons, not_or] at ht
      simp only [borrowParity]
      split
      · rfl
      · rw [ih _ ht.2, Function.update_of_ne ht.1]

/-- The parity shard of the row taken stands at the place of the lost data shard. -/
theorem borrowParity_copied (rs : ReedSolomon) (marks : ℕ → Bool) {erasures : List ℕ} {j : ℕ}
    (data : Shards bs) (hj : rs.ds ≤ j) (herasures : ∀ e ∈ erasures, e < rs.ds)
    (hnodup : erasures.Nodup) {i : ℕ}
    (hi : i < (borrowParity rs marks erasures j data).1.length) :
    (borrowParity rs marks erasures j data).2 (erasures.getD i 0) =
      data (rs.ds + (borrowParity rs marks erasures j data).1.getD i 0) := by
  induction erasures generalizing i j data with
  | nil => exact absurd hi i.not_lt_zero
  | cons e es ih =>
      simp only [borrowParity] at hi ⊢
      split at hi
      case isTrue => exact absurd hi i.not_lt_zero
      case isFalse hlt =>
        rw [if_neg hlt]
        have hle := le_skipWhile marks (rs.ts - j) j
        cases i with
        | zero =>
            simp only [List.getD_cons_zero]
            rw [borrowParity_same rs marks es _ (List.nodup_cons.mp hnodup).1, Function.update_self,
              Nat.add_sub_cancel' (hj.trans hle)]
        | succ i =>
            simp only [List.getD_cons_succ]
            rw [ih _ (by omega) (fun e' he' => herasures e' (List.mem_cons_of_mem e he'))
              (List.nodup_cons.mp hnodup).2 (Nat.lt_of_succ_lt_succ hi)]
            have he := herasures e List.mem_cons_self
            exact Function.update_of_ne (by omega) _ _

end MoonlightScarlet.Fec
