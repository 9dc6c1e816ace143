import MoonlightScarlet.Fec.Proofs.Inversion
import MoonlightScarlet.Fec.Proofs.Selection
import Mathlib.Data.List.Perm.Basic
/-!
# The decoder restores the lost shards

Where every square block of the parity rows is regular, any `ds` shards of a codeword
determine the data shards, and the decoder computes them.
-/

namespace MoonlightScarlet.Fec

open Finset Support.Elimination

variable {bs : ℕ}

/-- Every square block of the parity rows is regular. -/
def RegularParity (rs : ReedSolomon) : Prop :=
  ∀ k (d c : ℕ → ℕ), Distinct d k → Distinct c k → (∀ i < k, d i < rs.ps) →
    (∀ i < k, c i < rs.ds) → Regular (fun i j => (⟨rs.p (d i) (c j)⟩ : Galois)) k

/-- The parity shards are the combinations of the data shards that the rows say. -/
def Codeword (rs : ReedSolomon) (shards : Shards bs) : Prop :=
  ∀ j < rs.ps, vector (shards (rs.ds + j)) =
    ∑ k ∈ range rs.ds, (⟨rs.p j k⟩ : Galois) • vector (shards k)

/-! ## Lists of places -/

theorem distinct_getD {l : List ℕ} (hl : l.Nodup) : Distinct (l.getD · 0) l.length := by
  intro i hi j hj heq
  simp only [List.getD_eq_getElem _ _ hi, List.getD_eq_getElem _ _ hj] at heq
  exact (hl.getElem_inj_iff).mp heq

theorem getD_mem {l : List ℕ} {i : ℕ} (hi : i < l.length) : l.getD i 0 ∈ l := by
  rw [List.getD_eq_getElem _ _ hi]
  exact List.getElem_mem hi

/-- Distinct places below `n` are all the places below `n`. -/
theorem exists_column {c : ℕ → ℕ} {n : ℕ} (hc : Distinct c n) (hlt : ∀ k < n, c k < n) {t : ℕ}
    (ht : t < n) : ∃ k < n, c k = t := by
  have hsurj := surjOn_of_injOn_of_card_le c (s := range n) (t := range n)
    (fun k hk => mem_coe.mpr (mem_range.mpr (hlt k (mem_range.mp (mem_coe.mp hk)))))
    (fun i hi j hj => hc i (mem_range.mp (mem_coe.mp hi)) j (mem_range.mp (mem_coe.mp hj))) le_rfl
  obtain ⟨k, hk, heq⟩ := hsurj (mem_coe.mpr (mem_range.mpr ht))
  exact ⟨k, mem_range.mp (mem_coe.mp hk), heq⟩

theorem sum_columns {M : Type*} [AddCommMonoid M] {c : ℕ → ℕ} {n : ℕ} (hc : Distinct c n)
    (hlt : ∀ k < n, c k < n) (f : ℕ → M) : ∑ k ∈ range n, f (c k) = ∑ k ∈ range n, f k := by
  refine sum_nbij c (fun k hk => mem_range.mpr (hlt k (mem_range.mp hk)))
    (fun i hi j hj => hc i (mem_range.mp (mem_coe.mp hi)) j (mem_range.mp (mem_coe.mp hj)))
    (fun t ht => ?_) fun _ _ => rfl
  obtain ⟨k, hk, heq⟩ := exists_column hc hlt (mem_range.mp (mem_coe.mp ht))
  exact ⟨k, mem_coe.mpr (mem_range.mpr hk), heq⟩

/-! ## The choice of rows and columns -/

/-- The data shards lost. -/
def lost (rs : ReedSolomon) (marks : ℕ → Bool) : List ℕ := (List.range rs.ds).filter marks

/-- The columns in the order of the decoder: received, then lost. -/
def columns (rs : ReedSolomon) (marks : ℕ → Bool) : List ℕ :=
  received marks 0 rs.ds ++ lost rs marks

/-- The parity rows that stand in for the lost shards. -/
def rows (rs : ReedSolomon) (marks : ℕ → Bool) : List ℕ :=
  ((received marks rs.ds rs.ts).take (lost rs marks).length).map (· - rs.ds)

variable {rs : ReedSolomon} {marks : ℕ → Bool}

theorem mem_lost {t : ℕ} : t ∈ lost rs marks ↔ t < rs.ds ∧ marks t = true := by
  rw [lost, List.mem_filter, List.mem_range]

theorem length_received_add_lost (rs : ReedSolomon) (marks : ℕ → Bool) :
    (received marks 0 rs.ds).length + (lost rs marks).length = rs.ds := by
  have hlength := List.length_eq_length_filter_add (l := List.range rs.ds) marks
  rw [List.length_range, List.range_eq_range'] at hlength
  rw [lost, received, List.range_eq_range', Nat.sub_zero]
  omega

theorem length_columns : (columns rs marks).length = rs.ds := by
  rw [columns, List.length_append, length_received_add_lost]

theorem nodup_columns : (columns rs marks).Nodup := by
  refine (nodup_received marks 0 rs.ds).append ((List.nodup_range).filter _) fun t ht hlost => ?_
  rw [mem_received] at ht
  rw [mem_lost] at hlost
  rw [ht.2.2] at hlost
  exact absurd hlost.2 (by decide)

theorem columns_lt (rs : ReedSolomon) (marks : ℕ → Bool) {k : ℕ} (hk : k < rs.ds) :
    (columns rs marks).getD k 0 < rs.ds := by
  have hmem : (columns rs marks).getD k 0 ∈ columns rs marks :=
    getD_mem (length_columns.symm ▸ hk)
  rw [columns, List.mem_append, mem_received, mem_lost] at hmem
  rcases hmem with hmem | hmem
  · exact hmem.2.1
  · exact hmem.1

theorem distinct_columns (rs : ReedSolomon) (marks : ℕ → Bool) :
    Distinct ((columns rs marks).getD · 0) rs.ds := by
  have hnodup : (columns rs marks).Nodup := nodup_columns
  have hdistinct := distinct_getD hnodup
  rwa [length_columns] at hdistinct

theorem length_rows : (rows rs marks).length =
    min (lost rs marks).length (received marks rs.ds rs.ts).length := by
  rw [rows, List.length_map, List.length_take]

theorem nodup_rows : (rows rs marks).Nodup := by
  refine List.Nodup.map_on (fun a ha b hb heq => ?_) ((nodup_received _ _ _).take)
  have ha' := (mem_received.mp (List.mem_of_mem_take ha)).1
  have hb' := (mem_received.mp (List.mem_of_mem_take hb)).1
  omega

/-- Each row taken is the one of a parity shard that was received. -/
theorem rows_received {i : ℕ} (hi : i < (rows rs marks).length) :
    (rows rs marks).getD i 0 < rs.ps ∧ marks (rs.ds + (rows rs marks).getD i 0) = false := by
  have hmem : (rows rs marks).getD i 0 ∈ rows rs marks := getD_mem hi
  obtain ⟨t, ht, heq⟩ := List.mem_map.mp hmem
  obtain ⟨hge, hlt, hmark⟩ := mem_received.mp (List.mem_of_mem_take ht)
  rw [← heq]
  refine ⟨?_, ?_⟩
  · rw [ReedSolomon.ts] at hlt
    omega
  · rw [Nat.add_sub_cancel' hge, hmark]

theorem received_split (hle : rs.ds ≤ rs.ts) :
    received marks 0 rs.ts = received marks 0 rs.ds ++ received marks rs.ds rs.ts := by
  rw [received, received, received, ← List.filter_append]
  congr 1
  have happend : List.range' 0 rs.ds ++ List.range' (0 + rs.ds) (rs.ts - rs.ds) =
      List.range' 0 (rs.ds + (rs.ts - rs.ds)) := List.range'_append_1
  rw [Nat.zero_add, Nat.add_sub_cancel' hle] at happend
  rw [Nat.sub_zero, Nat.sub_zero, happend]

/-- With `ds` shards there is a parity shard for each data shard lost, and only then. -/
theorem length_rows_eq_iff : (rows rs marks).length = (lost rs marks).length ↔
    rs.ds ≤ (received marks 0 rs.ts).length := by
  have hsum := length_received_add_lost rs marks
  rw [received_split (Nat.le_add_right _ _), List.length_append, length_rows]
  omega

/-! ## The decoder -/

variable {data : Shards bs} {nrShards : ℤ}

/-- The shards with parity shards copied over the lost ones. -/
def borrowed (rs : ReedSolomon) (marks : ℕ → Bool) (data : Shards bs) : Shards bs :=
  (borrowParity rs marks (lost rs marks) rs.ds data).2

/-- The decoder gives up where a row is missing, and else inverts the matrix. -/
theorem reedSolomonDecode_eq (hshards : (rs.ts : ℤ) ≤ nrShards) (hbs : bs ≠ 0) :
    reedSolomonDecode rs data marks nrShards =
      if (rows rs marks).length < (lost rs marks).length then (-1, borrowed rs marks data)
      else (0, invertMat rs.p (rs.ds - (lost rs marks).length) rs.ds
        ((columns rs marks).getD · 0) ((rows rs marks).getD · 0) (borrowed rs marks data)) := by
  have hpresent : presentColumns rs marks (rs.ds - (lost rs marks).length) 0 =
      received marks 0 rs.ds := by
    have hsum := length_received_add_lost rs marks
    rw [presentColumns_eq rs marks (by omega), List.take_of_length_le (by omega)]
  have hrows := borrowParity_rows rs marks (lost rs marks) (j := rs.ds) data
  unfold reedSolomonDecode
  rw [if_neg (by omega)]
  change (if (borrowParity rs marks (lost rs marks) rs.ds data).1.length < (lost rs marks).length
    then (-1, borrowed rs marks data)
    else (0, invertMat rs.p (rs.ds - (lost rs marks).length) rs.ds
      ((presentColumns rs marks (rs.ds - (lost rs marks).length) 0 ++ lost rs marks).getD · 0)
      ((borrowParity rs marks (lost rs marks) rs.ds data).1.getD · 0)
      (borrowed rs marks data))) = _
  rw [hpresent, hrows]
  rfl

theorem borrowed_same {t : ℕ} (ht : t ∉ lost rs marks) : borrowed rs marks data t = data t :=
  borrowParity_same rs marks _ data ht

theorem borrowed_lost {i : ℕ} (hi : i < (rows rs marks).length) :
    borrowed rs marks data ((lost rs marks).getD i 0) =
      data (rs.ds + (rows rs marks).getD i 0) := by
  have hrows : (borrowParity rs marks (lost rs marks) rs.ds data).1 = rows rs marks :=
    borrowParity_rows rs marks _ data
  have hcopied := borrowParity_copied rs marks data le_rfl
    (fun e he => (mem_lost.mp he).1) ((List.nodup_range).filter _) (hrows ▸ hi)
  rwa [hrows] at hcopied

/-- Too few shards: an error, and no shard that was received is touched. -/
theorem reedSolomonDecode_gives_up (data : Shards bs) (hshards : (rs.ts : ℤ) ≤ nrShards)
    (hbs : bs ≠ 0) (hfew : (received marks 0 rs.ts).length < rs.ds) :
    reedSolomonDecode rs data marks nrShards = (-1, borrowed rs marks data) := by
  have hrows : (rows rs marks).length < (lost rs marks).length := by
    have hne := mt length_rows_eq_iff.mp (Nat.not_le.mpr hfew)
    have hle : (rows rs marks).length ≤ (lost rs marks).length := by
      rw [length_rows]
      exact Nat.min_le_left _ _
    omega
  rw [reedSolomonDecode_eq hshards hbs, if_pos hrows]

/-- The first columns are those of the data shards received. -/
theorem columns_received {k : ℕ} (hk : k < (received marks 0 rs.ds).length) :
    (columns rs marks).getD k 0 < rs.ds ∧ marks ((columns rs marks).getD k 0) = false := by
  rw [columns, List.getD_append _ _ _ _ hk]
  have hmem := mem_received.mp (getD_mem hk)
  exact ⟨hmem.2.1, hmem.2.2⟩

/-- The other columns are those of the shards lost. -/
theorem columns_lost (i : ℕ) :
    (columns rs marks).getD ((received marks 0 rs.ds).length + i) 0 =
      (lost rs marks).getD i 0 := by
  rw [columns, List.getD_append_right _ _ _ _ (Nat.le_add_right _ _), Nat.add_sub_cancel_left]

/-- The inversion on the rows and columns chosen restores the data shards of the codeword. -/
theorem invertMat_restores (hregular : RegularParity rs) {word : Shards bs}
    (hword : Codeword rs word) (hreceived : ∀ t < rs.ts, marks t = false → data t = word t)
    (hrows : (rows rs marks).length = (lost rs marks).length) {V0 : ℕ}
    (hV0 : V0 = (received marks 0 rs.ds).length) :
    (∀ k < rs.ds, vector (invertMat rs.p V0 rs.ds ((columns rs marks).getD · 0)
        ((rows rs marks).getD · 0) (borrowed rs marks data) ((columns rs marks).getD k 0)) =
      vector (word ((columns rs marks).getD k 0))) ∧
      SameOutside V0 (rs.ds - V0) ((columns rs marks).getD · 0) (borrowed rs marks data)
        (invertMat rs.p V0 rs.ds ((columns rs marks).getD · 0) ((rows rs marks).getD · 0)
          (borrowed rs marks data)) := by
  have hsum := length_received_add_lost rs marks
  have hcolumns := distinct_columns rs marks
  have hdistinct : Distinct ((rows rs marks).getD · 0) (rows rs marks).length :=
    distinct_getD nodup_rows
  refine invertMat_spec (fun t => vector (word t)) (by omega) hcolumns ?_ ?_ ?_
  · intro k hk
    refine hregular k _ (fun j => (columns rs marks).getD (V0 + j) 0) ?_ ?_ ?_ ?_
    · exact fun i hi j hj => hdistinct i (by omega) j (by omega)
    · intro i hi j hj heq
      have hplaces := hcolumns (V0 + i) (by omega) (V0 + j) (by omega) heq
      omega
    · exact fun i hi => (rows_received (by omega)).1
    · exact fun i hi => columns_lt rs marks (by omega)
  · intro k hk
    obtain ⟨hlt, hmark⟩ := columns_received (hV0 ▸ hk)
    rw [borrowed_same fun hmem => ?_, hreceived _ (by rw [ReedSolomon.ts]; omega) hmark]
    rw [(mem_lost.mp hmem).2] at hmark
    exact absurd hmark (by decide)
  · intro i hi
    have hrow : i < (rows rs marks).length := by omega
    obtain ⟨hps, hmark⟩ := rows_received hrow
    rw [sum_columns hcolumns (fun k hk => columns_lt rs marks hk) fun t =>
      (⟨rs.p ((rows rs marks).getD i 0) t⟩ : Galois) • vector (word t), ← hword _ hps, hV0,
      columns_lost, borrowed_lost hrow, hreceived _ (by rw [ReedSolomon.ts]; omega) hmark]

/-- Enough shards: the data shards of the codeword come back, the parity shards stay. -/
theorem reedSolomonDecode_restores (hregular : RegularParity rs) {word : Shards bs}
    (hword : Codeword rs word) (hshards : (rs.ts : ℤ) ≤ nrShards) (hbs : bs ≠ 0)
    (hreceived : ∀ t < rs.ts, marks t = false → data t = word t)
    (henough : rs.ds ≤ (received marks 0 rs.ts).length) :
    (reedSolomonDecode rs data marks nrShards).1 = 0 ∧
      (∀ t < rs.ds, (reedSolomonDecode rs data marks nrShards).2 t = word t) ∧
      ∀ t, rs.ds ≤ t → (reedSolomonDecode rs data marks nrShards).2 t = data t := by
  have hrows : (rows rs marks).length = (lost rs marks).length := length_rows_eq_iff.mpr henough
  have hsum := length_received_add_lost rs marks
  obtain ⟨hrestored, hsame⟩ := invertMat_restores hregular hword hreceived hrows
    (show rs.ds - (lost rs marks).length = _ by omega)
  rw [reedSolomonDecode_eq hshards hbs, if_neg (by omega)]
  refine ⟨rfl, fun t ht => ?_, fun t ht => ?_⟩
  · obtain ⟨k, hk, hcolumn⟩ :=
      exists_column (distinct_columns rs marks) (fun k hk => columns_lt rs marks hk) ht
    have hvector := hrestored k hk
    rw [hcolumn] at hvector
    exact vector_injective hvector
  · refine (hsame t fun i hi heq => ?_).trans (borrowed_same fun hmem => ?_)
    · have hlt := columns_lt rs marks (k := rs.ds - (lost rs marks).length + i) (by omega)
      exact absurd (ht.trans heq.le) (Nat.not_le.mpr hlt)
    · have hlt := (mem_lost.mp hmem).1
      omega

end MoonlightScarlet.Fec
