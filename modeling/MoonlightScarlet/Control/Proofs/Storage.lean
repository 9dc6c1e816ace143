import MoonlightScarlet.Control.Storage
/-!
# A save that fails

Where a save stops decides what the next load finds: the file as it was, the new
document, or a document that breaks off.
-/

namespace MoonlightScarlet.Control

open Support.Files

theorem working_reads : Io.working.Reads := ⟨fun _ => rfl, fun _ => rfl⟩

/-- Where a save stops: before it truncates the file, after the whole document is in it,
or between the two. -/
inductive SavePoint
  | untouched
  | whole
  | cut
  deriving DecidableEq, Repr

/-- The point at which the save of a document with a text of `size` bytes stops. -/
def Io.savePoint (io : Io) (name : String) (size : Nat) : SavePoint :=
  match io.createDirAll with
  | some _ => .untouched
  | none =>
      match io.write name with
      | .done => .whole
      | .failed _ none => .untouched
      | .failed _ (some written) => if size ≤ written then .whole else .cut

section Document

variable {α : Type} {json : Json α} {io : Io} {directory : Directory} {name : String} {a : α}
  {bytes : Bytes}

theorem loadDocument_reads (hreads : io.Reads) :
    loadDocument json io directory name =
      match directory name with
      | none => .ok none
      | some bytes => ((json.fromSlice bytes).mapError .configuration).map some := by
  cases hfile : directory name <;>
    simp only [loadDocument, hreads.tryExists, hreads.read, hfile]

/-- A save changes no other file. -/
theorem saveDocument_other {other : String} (h : other ≠ name) :
    (saveDocument json io directory name a).2 other = directory other := by
  unfold saveDocument
  split
  · rfl
  · split
    · rfl
    · exact write_other directory h _ _

theorem saveDocument_eq (hbytes : json.toVecPretty a = .ok bytes)
    (hcreate : io.createDirAll = none) :
    saveDocument json io directory name a = writeFile io directory name (bytes ++ [10]) := by
  rw [saveDocument, hcreate, hbytes]

theorem saveDocument_untouched (hbytes : json.toVecPretty a = .ok bytes)
    (hpoint : io.savePoint name bytes.length = .untouched) :
    (saveDocument json io directory name a).2 = directory ∧
      ∃ error, (saveDocument json io directory name a).1 = .error (.io error) := by
  unfold Io.savePoint at hpoint
  cases hcreate : io.createDirAll with
  | some error => exact ⟨by rw [saveDocument, hcreate], error, by rw [saveDocument, hcreate]⟩
  | none =>
      rw [hcreate] at hpoint
      rw [saveDocument_eq hbytes hcreate, writeFile]
      cases hwrite : io.write name with
      | done => simp [hwrite] at hpoint
      | failed error written =>
          cases written with
          | none => exact ⟨write_untouched .., error, rfl⟩
          | some written =>
              simp only [hwrite] at hpoint
              split_ifs at hpoint

/-- The bytes in the file, if the save truncated it. -/
theorem saveDocument_written (hbytes : json.toVecPretty a = .ok bytes)
    (hpoint : io.savePoint name bytes.length ≠ .untouched) :
    ∃ written, (saveDocument json io directory name a).2 name =
        some ((bytes ++ [10]).take written) ∧
      (io.savePoint name bytes.length = .whole ↔ bytes.length ≤ written) := by
  unfold Io.savePoint at hpoint ⊢
  cases hcreate : io.createDirAll with
  | some error => simp [hcreate] at hpoint
  | none =>
      rw [saveDocument_eq hbytes hcreate, writeFile]
      dsimp only
      rw [write_same]
      cases hwrite : io.write name with
      | done =>
          refine ⟨bytes.length + 1, ?_, by simp⟩
          rw [WriteOutcome.contents, List.take_of_length_le (by simp)]
      | failed error written =>
          cases written with
          | none => simp [hcreate, hwrite] at hpoint
          | some written =>
              refine ⟨written, rfl, ?_⟩
              dsimp only
              split_ifs with hsize <;> simp [hsize]

theorem loadDocument_written (hreads : io.Reads) {written : Nat}
    (hfile : directory name = some ((bytes ++ [10]).take written)) :
    loadDocument json io directory name =
      ((json.fromSlice ((bytes ++ [10]).take written)).mapError .configuration).map some := by
  rw [loadDocument_reads hreads, hfile]

/-- A document that is wholly in the file is loaded, with its line feed or without. -/
theorem loadDocument_whole (hjson : json.Faithful) (hbytes : json.toVecPretty a = .ok bytes)
    (hpoint : io.savePoint name bytes.length = .whole) {loading : Io} (hreads : loading.Reads) :
    loadDocument json loading (saveDocument json io directory name a).2 name = .ok (some a) := by
  obtain ⟨written, hfile, hwhole⟩ :=
    @saveDocument_written _ json io directory name a bytes hbytes (by simp [hpoint])
  have hsize : bytes.length ≤ written := hwhole.mp hpoint
  have hread : json.fromSlice ((bytes ++ [10]).take written) = .ok a := by
    rcases Nat.eq_or_lt_of_le hsize with heq | hlt
    · rw [← heq, List.take_left]
      exact hjson.roundTrip hbytes
    · rw [List.take_of_length_le (by simpa using Nat.succ_le_of_lt hlt)]
      exact hjson.lineFeed hbytes
  rw [loadDocument_written hreads hfile, hread]
  rfl

theorem loadDocument_cut (hjson : json.Faithful) (hbytes : json.toVecPretty a = .ok bytes)
    (hpoint : io.savePoint name bytes.length = .cut) :
    ∃ error, ∀ loading : Io, loading.Reads →
      loadDocument json loading (saveDocument json io directory name a).2 name =
        .error (.configuration error) := by
  obtain ⟨written, hfile, hwhole⟩ :=
    @saveDocument_written _ json io directory name a bytes hbytes (by simp [hpoint])
  have hsize : written < bytes.length := by
    rw [hpoint] at hwhole
    simpa using hwhole
  obtain ⟨error, herror⟩ := hjson.cut hbytes written hsize
  refine ⟨error, fun loading hreads => ?_⟩
  rw [loadDocument_written hreads hfile, List.take_append_of_le_length (Nat.le_of_lt hsize), herror]
  rfl

end Document

end MoonlightScarlet.Control
