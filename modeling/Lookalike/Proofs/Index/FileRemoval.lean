import Lookalike.Proofs.Index.VectorTable
import Lookalike.Proofs.Text.ByteOrder

/-!
# Removing a file from the table of vectors

The identities of a table ascend in the order of their UTF-8 forms. The scan for those that start
with the path of a file and a number sign enters the table at the place of that start and leaves it
at the first identity with another one. Main result: it finds what a test of every identity finds,
in ascending order, and the entries that fail the test stay, each with its vector.
-/

namespace Lookalike.VectorTable

open Utf8 (bytesOf bytesOf_lt_iff bytesOf_prefix_iff)

/-- Byte by byte, the text begins with the start. -/
def formStartsWith (start text : String) : Bool := (bytesOf start).isPrefixOf (bytesOf text)

/-- The scan by bytes: from the place of a start up to the first text without it. -/
def formScan (start : String) (ids : List String) : List String :=
  (ids.dropWhile (bytesOf · < bytesOf start)).takeWhile (formStartsWith start)

section Scan

theorem startsWith_eq_formStartsWith : startsWith = formStartsWith := by
  funext start text
  rw [Bool.eq_iff_iff, startsWith, formStartsWith, List.isPrefixOf_iff_prefix,
    List.isPrefixOf_iff_prefix, bytesOf_prefix_iff]

theorem idsFrom_eq_formScan (t : VectorTable) (start : String) :
    t.idsFrom start = formScan start t.ids := by
  simp only [idsFrom, formScan, bytesOf_lt_iff, startsWith_eq_formStartsWith]

/-- The scan finds what a test of every identity finds: both lists ascend, and they have the same
members. -/
theorem idsFrom_eq_filter (t : VectorTable) (start : String) :
    t.idsFrom start = t.ids.filter (startsWith start) := by
  have scanned : (t.idsFrom start).Sublist t.ids :=
    (List.takeWhile_sublist _).trans (List.dropWhile_sublist _)
  have tested : (t.ids.filter (startsWith start)).Sublist t.ids := List.filter_sublist
  have same_members (id : String) :
      id ∈ t.idsFrom start ↔ id ∈ t.ids.filter (startsWith start) := by
    rw [idsFrom, mem_scan t.pairwise_ids, List.mem_filter]
  have distinct : t.ids.Nodup := t.vectors.nodup_keys
  have permuted := (List.perm_ext_iff_of_nodup (distinct.sublist scanned)
    (distinct.sublist tested)).mpr same_members
  refine permuted.eq_of_pairwise (fun a b _ _ less greater => ?_)
    (t.pairwise_ids.sublist scanned) (t.pairwise_ids.sublist tested)
  exact absurd (String.lt_trans less greater) (String.lt_irrefl _)

end Scan

section Entries

theorem entries_foldl_remove (gone : List String) (t : VectorTable) :
    (gone.foldl remove t).vectors.entries = t.vectors.entries.filter (·.1 ∉ gone) := by
  induction gone generalizing t with
  | nil => exact (List.filter_eq_self.mpr (by simp)).symm
  | cons first gone ih =>
    rw [List.foldl_cons, ih, remove, SortedMap.erase, SortedMap.filter, List.filter_filter]
    refine List.filter_congr fun e _ => ?_
    simp [Bool.and_comm]

/-- What a removed file leaves are the entries whose identities start otherwise. -/
theorem entries_removeFile (t : VectorTable) (filePath : String) :
    (t.removeFile filePath).2.vectors.entries =
      t.vectors.entries.filter fun e => !startsWith (Chunk.idStart filePath) e.1 := by
  rw [removeFile, entries_foldl_remove, idsFrom_eq_filter]
  refine List.filter_congr fun e member => ?_
  have known : e.1 ∈ t.ids := List.mem_map_of_mem member
  simp [known]

end Entries

/-- The scan that removes a file returns the identities that start with the path of the file and a
number sign, all of them and in ascending order, as the plain filter would; the other entries stay
with their vectors. -/
theorem scan_like_filter (t : VectorTable) (filePath : String) :
    (t.ids.Pairwise fun a b => bytesOf a < bytesOf b) ∧
    (t.removeFile filePath).1 = formScan (filePath ++ "#") t.ids ∧
    (t.removeFile filePath).1 = t.ids.filter (formStartsWith (filePath ++ "#")) ∧
    ((t.removeFile filePath).1.Pairwise fun a b => bytesOf a < bytesOf b) ∧
    (t.removeFile filePath).2.vectors.entries =
      t.vectors.entries.filter (fun e => !formStartsWith (filePath ++ "#") e.1) ∧
    (t.removeFile filePath).2.dimension = t.dimension := by
  have ascending : t.ids.Pairwise fun a b => bytesOf a < bytesOf b :=
    t.pairwise_ids.imp fun {a b} less => (bytesOf_lt_iff a b).mpr less
  have tested := t.idsFrom_eq_filter (filePath ++ "#")
  have left := t.entries_removeFile filePath
  rw [startsWith_eq_formStartsWith] at tested left
  refine ⟨ascending, t.idsFrom_eq_formScan _, tested, ?_, left, dimension_foldl_remove _ _⟩
  rw [removeFile, Chunk.idStart, tested]
  exact ascending.filter _

/-- Identities on either side of those of a file. -/
def neighboursSample : VectorTable where
  dimension := some 1
  vectors := .ofList [("a.ts!1", #[1]), ("a.ts#1", #[1]), ("a.ts#é", #[1]), ("a.ts$1", #[1])]

example : (neighboursSample.removeFile "a.ts").1 = ["a.ts#1", "a.ts#é"] ∧
    (neighboursSample.removeFile "a.ts").2.ids = ["a.ts!1", "a.ts$1"] := by decide +kernel

end Lookalike.VectorTable
