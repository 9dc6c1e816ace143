import MoonlightScarlet.Fec.Proofs.Galois
import MoonlightScarlet.Support.Elimination
/-!
# What the inversion of the matrix computes

The work matrix and the shards at the columns `c (V0 + i)` are a system of equations with
the lost shards as unknowns; each loop of `invert_mat` is a pass of the elimination.
-/

namespace MoonlightScarlet.Fec

open Finset Support.Elimination Support.Loops

variable {bs : ℕ}

/-- The equations that the work matrix and the `W` shards in use stand for. -/
def equations (V0 W : ℕ) (c : ℕ → ℕ) (s : Work bs) : System Galois (Fin bs → Galois) where
  coeff i := vector (s.wrk i)
  value i := if i < W then vector (s.dst (c (V0 + i))) else 0

/-- Only shards at the `W` columns from `V0` on differ. -/
def SameOutside (V0 W : ℕ) (c : ℕ → ℕ) (dst dst' : Shards bs) : Prop :=
  ∀ r, (∀ i < W, r ≠ c (V0 + i)) → dst' r = dst r

theorem SameOutside.update {V0 W : ℕ} {c : ℕ → ℕ} {dst dst' : Shards bs}
    (h : SameOutside V0 W c dst dst') {i : ℕ} (hi : i < W) (row : Fin bs → UInt8) :
    SameOutside V0 W c dst (Function.update dst' (c (V0 + i)) row) := fun r hr =>
  (Function.update_of_ne (hr i hi) row dst').trans (h r hr)

section Columns

variable {V0 W : ℕ} {c : ℕ → ℕ}

/-- The columns in use are distinct. -/
def Distinct (c : ℕ → ℕ) (n : ℕ) : Prop := ∀ i < n, ∀ j < n, c i = c j → i = j

theorem value_update (hc : Distinct c (V0 + W)) (dst : Shards bs) {t : ℕ} (ht : t < W)
    (row : Fin bs → UInt8) :
    (fun i => if i < W then vector (Function.update dst (c (V0 + t)) row (c (V0 + i))) else 0) =
      Function.update (fun i => if i < W then vector (dst (c (V0 + i))) else 0) t (vector row) := by
  funext i
  by_cases hi : i = t
  · subst hi
    simp only [Function.update_self, if_pos ht]
  · rw [Function.update_of_ne hi]
    split
    case isFalse => rfl
    case isTrue hlt =>
      have hne : c (V0 + i) ≠ c (V0 + t) := fun heq =>
        hi (by have := hc (V0 + i) (by omega) (V0 + t) (by omega) heq; omega)
      rw [Function.update_of_ne hne]

/-- Adding a row to another, on the matrix and on the shards, is a row operation. -/
theorem equations_addRow (hc : Distinct c (V0 + W)) (s : Work bs) {x row : ℕ} (hx : x < W)
    (hrow : row < W) :
    equations V0 W c (eliminateRow V0 c x row s) =
      (equations V0 W c s).addRow ((equations V0 W c s).coeff row x) x row := by
  simp only [equations, eliminateRow, System.addRow, System.mk.injEq]
  constructor
  · funext i
    by_cases hi : i = row
    · subst hi
      rw [Function.update_self, Function.update_self, vector_axpy]
      rfl
    · rw [Function.update_of_ne hi, Function.update_of_ne hi]
  · rw [value_update hc _ hrow, vector_axpy, if_pos hrow, if_pos hx]
    rfl

/-- Scaling the rest of a row, on the matrix and on the shards, is a row operation. -/
theorem equations_scaleRow (hc : Distinct c (V0 + W)) (s : Work bs) {x : ℕ} (hx : x < W)
    (hpivot : (equations V0 W c s).coeff x x ≠ 0) :
    equations V0 W c (normalizeRow V0 c x s) =
      (equations V0 W c s).scaleRow ((equations V0 W c s).coeff x x)⁻¹ x := by
  have hinverse : ((equations V0 W c s).coeff x x)⁻¹ = ⟨inverse (s.wrk x x)⟩ :=
    (Galois.mk_inverse _).symm
  have hu : (⟨inverse (s.wrk x x)⟩ : Galois) ≠ 0 := hinverse ▸ inv_ne_zero hpivot
  rw [hinverse]
  simp only [equations, normalizeRow, System.scaleRow, System.mk.injEq]
  constructor
  · funext i
    by_cases hi : i = x
    · subst hi
      rw [Function.update_self, Function.update_self]
      funext j
      simp only [vector, scalFrom]
      split
      · exact congrFun (vector_scal (s.wrk i) hu) j
      · rfl
    · rw [Function.update_of_ne hi, Function.update_of_ne hi]
  · rw [value_update hc _ hx, vector_scal _ hu, if_pos hx]

/-- Adding a shard to another leaves the matrix as it is. -/
theorem equations_addValue (hc : Distinct c (V0 + W)) (wrk : ℕ → ℕ → UInt8) (dst : Shards bs)
    {x row : ℕ} (hx : x < W) (hrow : row < W) :
    equations V0 W c ⟨wrk, substituteRow V0 c wrk x row dst⟩ =
      (equations V0 W c ⟨wrk, dst⟩).addValue ⟨wrk row x⟩ x row := by
  simp only [equations, substituteRow, System.addValue, System.mk.injEq, true_and]
  rw [value_update hc _ hrow, vector_axpy, if_pos hrow, if_pos hx]

/-! ## The loops -/

variable {solution : ℕ → Fin bs → Galois}

theorem eliminateColumn_spec (hc : Distinct c (V0 + W)) {s : Work bs} {x : ℕ} (hx : x < W)
    (h : Eliminated (equations V0 W c s) W solution x) :
    Eliminated (equations V0 W c (eliminateColumn V0 W c x s)) W solution (x + 1) ∧
      SameOutside V0 W c s.dst (eliminateColumn V0 W c x s).dst := by
  have hloop : Clearing (equations V0 W c (eliminateColumn V0 W c x s)) W solution x
      (x + 1 + (W - (x + 1))) ∧ SameOutside V0 W c s.dst (eliminateColumn V0 W c x s).dst := by
    refine fold_induct (fun i (s' : Work bs) => Clearing (equations V0 W c s') W solution x
      (x + 1 + i) ∧ SameOutside V0 W c s.dst s'.dst) ⟨?_, ?_⟩ fun i hi s' ⟨hclearing, hsame⟩ => ?_
    · rw [equations_scaleRow hc s hx (h.pivot_ne_zero hx)]
      exact h.scale hx
    · exact SameOutside.update (fun _ _ => rfl) hx _
    · refine ⟨?_, hsame.update (by omega) _⟩
      rw [equations_addRow hc s' hx (by omega)]
      exact hclearing.addRow (by omega) (by omega)
  rw [Nat.add_sub_cancel' hx] at hloop
  exact ⟨hloop.1.done, hloop.2⟩

theorem substituteColumn_spec (hc : Distinct c (V0 + W)) {wrk : ℕ → ℕ → UInt8}
    {dst : Shards bs} {x : ℕ} (hx : x < W)
    (h : Substituted (equations V0 W c ⟨wrk, dst⟩) W solution (x + 1)) :
    Substituted (equations V0 W c ⟨wrk, substituteColumn V0 c wrk x dst⟩) W solution x ∧
      SameOutside V0 W c dst (substituteColumn V0 c wrk x dst) := by
  have hloop : Substituting (equations V0 W c ⟨wrk, substituteColumn V0 c wrk x dst⟩) W solution
      x x ∧ SameOutside V0 W c dst (substituteColumn V0 c wrk x dst) := by
    refine fold_induct (fun row (dst' : Shards bs) =>
      Substituting (equations V0 W c ⟨wrk, dst'⟩) W solution x row ∧
        SameOutside V0 W c dst dst') ⟨h.next hx, fun _ _ => rfl⟩
      fun row hrow dst' ⟨hsubstituting, hsame⟩ => ⟨?_, hsame.update (by omega) _⟩
    rw [equations_addValue hc wrk dst' hx (by omega)]
    exact hsubstituting.addValue hrow hx
  exact ⟨hloop.1.done, hloop.2⟩

/-- The parity shard `i` without the shards that were received. -/
def reducedShard (src : ℕ → ℕ → UInt8) (V0 : ℕ) (c d : ℕ → ℕ) (dst : Shards bs) (i : ℕ) :
    Fin bs → Galois :=
  vector (dst (c (V0 + i))) +
    ∑ row ∈ range V0, (⟨src (d i) (c row)⟩ : Galois) • vector (dst (c row))

theorem subtractShards_spec (hc : Distinct c (V0 + W)) (src : ℕ → ℕ → UInt8) (d : ℕ → ℕ)
    (dst : Shards bs) {i : ℕ} (hi : i < W) :
    vector (V0.fold (fun row _ dst => subtractShard src V0 c d i row dst) dst (c (V0 + i))) =
        reducedShard src V0 c d dst i ∧
      ∀ t, t ≠ c (V0 + i) →
        V0.fold (fun row _ dst => subtractShard src V0 c d i row dst) dst t = dst t := by
  refine fold_induct (fun r (dst' : Shards bs) =>
    vector (dst' (c (V0 + i))) = vector (dst (c (V0 + i))) +
        ∑ row ∈ range r, (⟨src (d i) (c row)⟩ : Galois) • vector (dst (c row)) ∧
      ∀ t, t ≠ c (V0 + i) → dst' t = dst t)
    ⟨by rw [sum_range_zero, add_zero], fun _ _ => rfl⟩ fun r hr dst' ⟨hvalue, hsame⟩ => ⟨?_, ?_⟩
  · have hpresent : c r ≠ c (V0 + i) := fun heq => by
      have := hc r (by omega) (V0 + i) (by omega) heq
      omega
    rw [subtractShard, Function.update_self, vector_axpy, hvalue, hsame (c r) hpresent,
      sum_range_succ, add_assoc]
  · intro t ht
    rw [subtractShard, Function.update_of_ne ht, hsame t ht]

/-- The shards received are taken out of each parity shard in use. -/
theorem subtractPresent_spec (hc : Distinct c (V0 + W)) (src : ℕ → ℕ → UInt8) (d : ℕ → ℕ)
    (dst : Shards bs) :
    (∀ i < W, vector (subtractPresent src V0 W c d dst (c (V0 + i))) =
      reducedShard src V0 c d dst i) ∧
      SameOutside V0 W c dst (subtractPresent src V0 W c d dst) := by
  refine fold_induct (fun n (dst' : Shards bs) =>
    (∀ i < n, vector (dst' (c (V0 + i))) = reducedShard src V0 c d dst i) ∧
      SameOutside V0 n c dst dst')
    ⟨fun i hi => absurd hi i.not_lt_zero, fun _ _ => rfl⟩
    fun n hn dst' ⟨hvalue, hsame⟩ => ?_
  obtain ⟨hnew, hother⟩ := subtractShards_spec hc src d dst' hn
  have hne : ∀ i < V0 + W, i ≠ V0 + n → c i ≠ c (V0 + n) := fun i hi hin heq =>
    hin (hc i hi (V0 + n) (by omega) heq)
  have hkept : ∀ i < V0 + W, (∀ j < n, i ≠ V0 + j) → dst' (c i) = dst (c i) := fun i hi hin =>
    hsame (c i) fun j hj heq => hin j hj (hc i hi (V0 + j) (by omega) heq)
  refine ⟨fun i hi => ?_, fun t ht => ?_⟩
  · rcases Nat.lt_succ_iff_lt_or_eq.mp hi with hlt | rfl
    · rw [hother _ (hne (V0 + i) (by omega) (by omega)), hvalue i hlt]
    · rw [hnew, reducedShard, hkept (V0 + i) (by omega) (by omega), reducedShard]
      congr 1
      refine sum_congr rfl fun row hrow => ?_
      rw [mem_range] at hrow
      rw [hkept row (by omega) (by omega)]
  · rw [hother t (ht n (Nat.lt_succ_self n)), hsame t fun j hj => ht j (by omega)]

end Columns

/-- Where the leading blocks are regular, the unknown shards come out: the shards received are
in place, and a parity shard stands at the place of each lost one. -/
theorem invertMat_spec {src : ℕ → ℕ → UInt8} {V0 K : ℕ} {c d : ℕ → ℕ} {dst : Shards bs}
    (original : ℕ → Fin bs → Galois) (hV0 : V0 ≤ K) (hc : Distinct c K)
    (hregular : ∀ k ≤ K - V0,
      Regular (fun i j => (⟨src (d i) (c (V0 + j))⟩ : Galois)) k)
    (hpresent : ∀ row < V0, vector (dst (c row)) = original (c row))
    (hparity : ∀ i < K - V0, vector (dst (c (V0 + i))) =
      ∑ k ∈ range K, (⟨src (d i) (c k)⟩ : Galois) • original (c k)) :
    (∀ k < K, vector (invertMat src V0 K c d dst (c k)) = original (c k)) ∧
      SameOutside V0 (K - V0) c dst (invertMat src V0 K c d dst) := by
  obtain ⟨W, rfl⟩ := Nat.exists_eq_add_of_le hV0
  simp only [Nat.add_sub_cancel_left] at *
  obtain ⟨hreduced, hsame⟩ := subtractPresent_spec hc src d dst
  let start : Work bs :=
    { wrk := fun i j => src (d i) (c (V0 + j)), dst := subtractPresent src V0 W c d dst }
  -- Taking the shards received out of a parity shard leaves the unknowns.
  have hsolves : (equations V0 W c start).Solves W fun i => original (c (V0 + i)) := by
    intro i hi
    have hreceived : ∑ row ∈ range V0, (⟨src (d i) (c row)⟩ : Galois) • vector (dst (c row)) =
        ∑ row ∈ range V0, (⟨src (d i) (c row)⟩ : Galois) • original (c row) :=
      sum_congr rfl fun row hrow => by rw [hpresent row (mem_range.mp hrow)]
    simp only [equations, if_pos hi, start]
    rw [hreduced i hi, reducedShard, hparity i hi, sum_range_add, hreceived, add_right_comm,
      Galois.add_self, zero_add]
    rfl
  have hforward : Eliminated (equations V0 W c (W.fold (fun x _ s => eliminateColumn V0 W c x s)
      start)) W (fun i => original (c (V0 + i))) W ∧ SameOutside V0 W c dst
        (W.fold (fun x _ s => eliminateColumn V0 W c x s) start).dst := by
    refine fold_induct (fun x (s : Work bs) => Eliminated (equations V0 W c s) W
      (fun i => original (c (V0 + i))) x ∧ SameOutside V0 W c dst s.dst)
      ⟨Eliminated.start hsolves hregular, hsame⟩ fun x hx s ⟨helim, hs⟩ => ?_
    obtain ⟨hnext, hkept⟩ := eliminateColumn_spec hc hx helim
    exact ⟨hnext, fun r hr => (hkept r hr).trans (hs r hr)⟩
  set triangular := W.fold (fun x _ s => eliminateColumn V0 W c x s) start
  have hresult : invertMat src V0 (V0 + W) c d dst =
      W.foldRev (fun x _ dst => substituteColumn V0 c triangular.wrk x dst) triangular.dst := by
    unfold invertMat
    rw [Nat.add_sub_cancel_left]
  have hbackward : Substituted (equations V0 W c ⟨triangular.wrk, invertMat src V0 (V0 + W) c d
      dst⟩) W (fun i => original (c (V0 + i))) 0 ∧
        SameOutside V0 W c dst (invertMat src V0 (V0 + W) c d dst) := by
    rw [hresult]
    refine foldRev_induct (fun x (dst' : Shards bs) =>
      Substituted (equations V0 W c ⟨triangular.wrk, dst'⟩) W (fun i => original (c (V0 + i))) x ∧
        SameOutside V0 W c dst dst') ⟨hforward.1.substituted, hforward.2⟩
      fun x hx dst' ⟨hsub, hs⟩ => ?_
    obtain ⟨hnext, hkept⟩ := substituteColumn_spec hc hx hsub
    exact ⟨hnext, fun r hr => (hkept r hr).trans (hs r hr)⟩
  refine ⟨fun k hk => ?_, hbackward.2⟩
  rcases Nat.lt_or_ge k V0 with hlt | hge
  · rw [hbackward.2 (c k) fun i hi heq => by
      have := hc k hk (V0 + i) (by omega) heq
      omega]
    exact hpresent k hlt
  · obtain ⟨i, rfl⟩ := Nat.exists_eq_add_of_le hge
    have hi : i < W := by omega
    have hsolved := hbackward.1.solved i i.zero_le hi
    simpa only [equations, if_pos hi] using hsolved

end MoonlightScarlet.Fec
